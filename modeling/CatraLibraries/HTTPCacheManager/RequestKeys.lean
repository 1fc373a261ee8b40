/-
# The keys of the requests

An `HTTPCacheManager` remembers for a while which request belongs to a key, in records on the heap:
a hash map finds them by their keys, a multimap has them in the order of their timestamps.
`HTTPRequestKeysRetention` removes the records at the beginning of the multimap that are too old.

The age is a difference of signed times that is compared with an unsigned limit.  A record of the
future, after the clock was set back, is older than every limit then.
-/
import CatraLibraries.Lib.HashMaps
import CatraLibraries.Lib.MultiMap
import CatraLibraries.Lib.Transition
import Mathlib.Order.Basic
import Mathlib.Algebra.Order.Ring.Int

namespace CatraLibraries

open HashMaps Transition

/-- `HTTPRequestKeyInfo_t`. -/
structure HTTPRequestKeyInfo where
  bHTTPRequestKey : List UInt8
  bHTTPRequest : List UInt8
  bIsHTTPRequestSuccess : Bool
  tTimestamp : Int
  deriving DecidableEq, Repr

/-- The errors of the methods with the keys. -/
inductive RequestKeyError
  | newFailed
  | httpRequestKeyNotFound
  | httpRequestKeyIsMarkedAsFailed
  deriving DecidableEq, Repr

/-- The members for the keys: the records of the heap, those that are allocated, and the two
containers of pointers to them.  `marked` is the history: the keys that were marked as failed, and
not removed since. -/
structure RequestKeys where
  infos : ℕ → HTTPRequestKeyInfo
  allocated : List ℕ
  phmHTTPRequestKeys : HashMap (List UInt8) ℕ
  mmHTTPRequestKeys : MultiMap Int ℕ
  marked : List (List UInt8)

namespace RequestKeys

/-- The members after `init`. -/
def initial : RequestKeys where
  infos := fun _ => ⟨[], [], false, 0⟩
  allocated := []
  phmHTTPRequestKeys := ∅
  mmHTTPRequestKeys := .empty
  marked := []

/-- `saveHTTPRequestKey`; `phri` is the address that `new` gives, and `tNow` the clock. -/
def saveHTTPRequestKey (newWorks : Bool) (phri : ℕ) (tNow : Int)
    (pbHTTPRequestKey pbHTTPRequest : List UInt8) (bIsHTTPRequestSuccess : Bool) (s : RequestKeys) :
    Except RequestKeyError Unit × RequestKeys :=
  if newWorks = false then (.error .newFailed, s)
  else
    let s := { s with
      infos := Function.update s.infos phri
        ⟨pbHTTPRequestKey, pbHTTPRequest, bIsHTTPRequestSuccess, tNow⟩
      allocated := phri :: s.allocated }
    let (iDidInsert, phmHTTPRequestKeys) :=
      insertWithoutDuplication pbHTTPRequestKey phri s.phmHTTPRequestKeys
    -- a key that is there already is no error
    if iDidInsert = false then (.ok (), { s with allocated := s.allocated.erase phri })
    else
      (.ok (), { s with
        phmHTTPRequestKeys := phmHTTPRequestKeys
        mmHTTPRequestKeys := s.mmHTTPRequestKeys.insert tNow phri })

/-- `markHTTPRequestKeyAsFailed`. -/
def markHTTPRequestKeyAsFailed (newWorks : Bool) (phri : ℕ) (tNow : Int)
    (pbHTTPRequestKey : List UInt8) (s : RequestKeys) : Except RequestKeyError Unit × RequestKeys :=
  s.saveHTTPRequestKey newWorks phri tNow pbHTTPRequestKey [] false

/-- `getLocalPathNameUsingHTTPRequestKey`, up to its call of `getLocalPathNameAndCacheContent` with
the request that it returns. -/
def getLocalPathNameUsingHTTPRequestKey (pbHTTPRequestKey : List UInt8) (s : RequestKeys) :
    Except RequestKeyError (List UInt8) :=
  match s.phmHTTPRequestKeys.lookup pbHTTPRequestKey with
  | none => .error .httpRequestKeyNotFound
  | some phri =>
    if (s.infos phri).bIsHTTPRequestSuccess then .ok (s.infos phri).bHTTPRequest
    else .error .httpRequestKeyIsMarkedAsFailed

/-- The comparison of the retention: both sides are `unsigned long`. -/
def Expired (ulRetentionInSeconds : UInt64) (tNow tTimestamp : Int) : Prop :=
  (ulRetentionInSeconds.toNat : Int) < (tNow - tTimestamp) % 2 ^ 64

instance (ulRetentionInSeconds : UInt64) (tNow tTimestamp : Int) :
    Decidable (Expired ulRetentionInSeconds tNow tTimestamp) := inferInstanceAs (Decidable (_ < _))

/-- `ulHTTPRequestKeysNumberToBeRemoved`. -/
def numberToBeRemoved (ulRetentionInSeconds : UInt64) (tNow : Int) (s : RequestKeys) : ℕ :=
  (s.mmHTTPRequestKeys.entries.takeWhile fun e =>
    Expired ulRetentionInSeconds tNow (s.infos e.2).tTimestamp).length

/-- One turn of the loop that removes records: the first of the multimap. -/
def removeFirst (s : RequestKeys) : RequestKeys :=
  match s.mmHTTPRequestKeys.begin? with
  | none => s
  | some (tTimestamp, phri) =>
    { s with
      mmHTTPRequestKeys := s.mmHTTPRequestKeys.erase tTimestamp
      phmHTTPRequestKeys := s.phmHTTPRequestKeys.erase (s.infos phri).bHTTPRequestKey
      allocated := s.allocated.erase phri }

/-- `HTTPRequestKeysRetention`. -/
def retention (ulRetentionInSeconds : UInt64) (tNow : Int) (s : RequestKeys) : RequestKeys :=
  removeFirst^[s.numberToBeRemoved ulRetentionInSeconds tNow] s

/-- A reading of the clock. -/
def IsTime (t : Int) : Prop := -2 ^ 63 ≤ t ∧ t < 2 ^ 63

instance (t : Int) : Decidable (IsTime t) := inferInstanceAs (Decidable (_ ∧ _))

/-- The calls, with what `new` and `time` return. -/
inductive Action
  | save (newWorks : Bool) (phri : ℕ) (tNow : Int) (pbHTTPRequestKey pbHTTPRequest : List UInt8)
  | mark (newWorks : Bool) (phri : ℕ) (tNow : Int) (pbHTTPRequestKey : List UInt8)
  | retention (tNow : Int)

/-- One call; `new` gives memory that is not allocated. -/
def step (ulRetentionInSeconds : UInt64) (s : RequestKeys) : Action → Option RequestKeys
  | .save newWorks phri tNow pbHTTPRequestKey pbHTTPRequest =>
    if phri ∉ s.allocated ∧ IsTime tNow then
      some (s.saveHTTPRequestKey newWorks phri tNow pbHTTPRequestKey pbHTTPRequest true).2
    else none
  | .mark newWorks phri tNow pbHTTPRequestKey =>
    if phri ∉ s.allocated ∧ IsTime tNow then
      let result := s.markHTTPRequestKeyAsFailed newWorks phri tNow pbHTTPRequestKey
      some { result.2 with
        marked := if result.1 = .ok () then pbHTTPRequestKey :: s.marked else s.marked }
    else none
  | .retention tNow =>
    if IsTime tNow then
      let s' := s.retention ulRetentionInSeconds tNow
      some { s' with marked := s.marked.filter (· ∈ s'.phmHTTPRequestKeys) }
    else none

end RequestKeys

end CatraLibraries
