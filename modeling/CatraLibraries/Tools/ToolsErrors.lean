/-
# Error codes

`Tools/src/ToolsErrors.h`: the codes with which the classes of `Tools` report.
-/
import CatraLibraries.Lib.Memory

namespace CatraLibraries

/-- The codes of `ToolsErrors.h` that the modelled functions report. -/
inductive ToolsError
  | errNoError
  | bufferInitFailed
  | bufferAppendFailed
  | bufferCharNotFound
  | fileIOSeekFailed
  | fileIOReadBytesFailed
  | fileReaderReachedEndOfFile
  | fileReaderCacheSizeTooLow
  | fileReaderReadMoreThanCacheFailed
  | fileReaderReadNetUnsignedInt8BitFailed
  | fileReaderBufferTooSmall
  | fileReaderSeekFailed
  | fileReaderBufferNotFound
  | activationWrong
  | operationNotAllowed
  | stringTokenizerNoMoreToken
  deriving DecidableEq, Repr

end CatraLibraries
