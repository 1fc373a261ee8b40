/-
# The parts of a well-formed URL

A URL `scheme://server[:port]/path[?params]` with a server or a port, with a path and with a port
that a `long` holds is cut into its parts.  Where the path is empty, the tokenizer skips the question
mark and takes the parameters for the path, or finds no token; where server and port are empty, it
skips the third slash and takes the path for the server.
-/
import CatraLibraries.WebTools.ParseURL

namespace CatraLibraries

open Memory CString

namespace WebUtility

/-- `scheme://server[:port]/path[?params]`. -/
structure Url where
  scheme : List UInt8
  server : List UInt8
  port : Option (List UInt8)
  path : List UInt8
  params : Option (List UInt8)
  scheme_free : 47 ∉ scheme ∧ 0 ∉ scheme
  server_free : 47 ∉ server ∧ 58 ∉ server ∧ 0 ∉ server
  port_digits : ∀ digits ∈ port, digits ≠ [] ∧ ∀ c ∈ digits, 48 ≤ c ∧ c ≤ 57
  path_free : 63 ∉ path ∧ 0 ∉ path
  params_free : ∀ p ∈ params, 0 ∉ p

namespace Url

/-- The port with its colon. -/
def portText (u : Url) : List UInt8 := u.port.elim [] (58 :: ·)

/-- The parameters with their question mark. -/
def paramsText (u : Url) : List UInt8 := u.params.elim [] (63 :: ·)

/-- The server and the port. -/
def authority (u : Url) : List UInt8 := u.server ++ u.portText

def text (u : Url) : List UInt8 :=
  u.scheme ++ 58 :: 47 :: 47 :: (u.authority ++ 47 :: (u.path ++ u.paramsText))

/-- The number that the digits of a port write. -/
def portNumber (digits : List UInt8) : Nat :=
  Stdio.decimal (digits.map fun b => Char.ofNat b.toNat)

/-- What a caller is to get: `?` and the parameters, but nothing where they are empty. -/
def parts (u : Url) : ParsedURL where
  pServer := u.server
  lPort := u.port.elim (-1) fun digits => portNumber digits
  bRelativePathWithoutParameters := 47 :: u.path
  bURLParameters := if u.params.getD [] = [] then [] else u.paramsText

/-- The parts are told apart by the separators between them. -/
def Separable (u : Url) : Prop :=
  u.path ≠ [] ∧ u.authority ≠ [] ∧ ∀ digits ∈ u.port, (portNumber digits : Int) ≤ Stdio.longMax

variable {u : Url}

theorem portText_free (u : Url) : 47 ∉ u.portText ∧ 0 ∉ u.portText := by
  have hdigits := u.port_digits
  unfold portText
  cases hport : u.port with
  | none => exact ⟨List.not_mem_nil, List.not_mem_nil⟩
  | some digits =>
    have hrange := (hdigits digits hport).2
    refine ⟨fun hmem => ?_, fun hmem => ?_⟩
    · rcases List.mem_cons.mp hmem with h | h
      · exact absurd h (by decide)
      · exact absurd (hrange _ h).1 (by decide)
    · rcases List.mem_cons.mp hmem with h | h
      · exact absurd h (by decide)
      · exact absurd (hrange _ h).1 (by decide)

theorem paramsText_free (u : Url) : 0 ∉ u.paramsText := by
  have hfree := u.params_free
  unfold paramsText
  cases hparams : u.params with
  | none => exact List.not_mem_nil
  | some p =>
    intro hmem
    rcases List.mem_cons.mp hmem with h | h
    · exact absurd h (by decide)
    · exact hfree p hparams h

/-- What a caller gets of the parameters lacks a question mark at most. -/
theorem length_paramsText_le (u : Url) :
    u.paramsText.length ≤ u.parts.bURLParameters.length + 1 := by
  unfold parts
  dsimp only
  split
  · next hempty =>
    unfold paramsText
    cases hparams : u.params with
    | none => exact Nat.zero_le _
    | some p =>
      rw [hparams] at hempty
      obtain rfl : p = [] := hempty
      exact Nat.le_refl 1
  · exact Nat.le_succ _

theorem authority_free (u : Url) : 47 ∉ u.authority ∧ 0 ∉ u.authority := by
  unfold authority
  simp only [List.mem_append, not_or]
  exact ⟨⟨u.server_free.1, u.portText_free.1⟩, u.server_free.2.2, u.portText_free.2⟩

theorem text_nulFree (u : Url) : 0 ∉ u.text := by
  unfold text
  simp only [List.mem_append, List.mem_cons, not_or]
  refine ⟨u.scheme_free.2, by decide, by decide, by decide, u.authority_free.2, by decide,
    u.path_free.2, u.paramsText_free⟩

/-- The URL as an argument. -/
def pURL (u : Url) : CStr := ⟨u.text, u.text_nulFree⟩

end Url

/-! ### Tokens -/

variable {set s token rest : List UInt8}

theorem cutToken_skip {c : UInt8} (hc : c ∈ set) : cutToken set (c :: s) = cutToken set s := by
  unfold cutToken
  rw [List.dropWhile_cons_of_pos (by simpa using hc)]

theorem cutToken_append {d : UInt8} (htoken : ∀ c ∈ token, c ∉ set) (hne : token ≠ [])
    (hd : d ∈ set) : cutToken set (token ++ d :: rest) = some (token, rest) := by
  obtain ⟨c, u, rfl⟩ := List.exists_cons_of_ne_nil hne
  have hc : c ∉ set := htoken c List.mem_cons_self
  have htake : ∀ b ∈ c :: u, decide (b ∉ set) = true := fun b hb => by simpa using htoken b hb
  unfold cutToken
  rw [List.cons_append, List.dropWhile_cons_of_neg (by simpa using hc)]
  dsimp only
  rw [← List.cons_append, List.takeWhile_append_of_pos htake, List.dropWhile_append_of_pos htake]
  simp [hd]

theorem cutToken_all (hs : ∀ c ∈ s, c ∉ set) (hne : s ≠ []) : cutToken set s = some (s, []) := by
  obtain ⟨c, u, rfl⟩ := List.exists_cons_of_ne_nil hne
  have hc : c ∉ set := hs c List.mem_cons_self
  have htake : ∀ b ∈ c :: u, decide (b ∉ set) = true := fun b hb => by simpa using hs b hb
  unfold cutToken
  rw [List.dropWhile_cons_of_neg (by simpa using hc)]
  dsimp only
  rw [List.takeWhile_eq_self_iff.mpr htake, List.dropWhile_eq_nil_iff.mpr htake]
  rfl

/-- The token and, where a text is left, the delimiter behind it come off the string. -/
theorem cutToken_lengths (h : cutToken set s = some (token, rest)) :
    token.length + rest.length ≤ s.length ∧
      (rest ≠ [] → token.length + 1 + rest.length ≤ s.length) := by
  have hcut := cutToken_cut set s
  rw [h] at hcut
  cases hcut with
  | last hskip htoken hne =>
    refine ⟨?_, fun hrest => absurd rfl hrest⟩
    rw [List.length_append, List.length_nil]
    omega
  | next hskip htoken hne hd =>
    simp only [List.length_append, List.length_cons]
    omega

theorem cutToken_nonempty (h : cutToken set s = some (token, rest)) : token ≠ [] := by
  have hcut := cutToken_cut set s
  rw [h] at hcut
  cases hcut with
  | last hskip htoken hne => exact hne
  | next hskip htoken hne hd => exact hne

theorem length_parametersOf (rest : List UInt8) :
    (parametersOf rest).length = if rest = [] then 0 else rest.length + 1 := by
  unfold parametersOf
  by_cases hne : rest = []
  · subst hne
    rfl
  · rw [cutToken_all (by simp) hne, if_neg hne]
    rfl

theorem parametersOf_eq (rest : List UInt8) :
    parametersOf rest = if rest = [] then [] else 63 :: rest := by
  unfold parametersOf
  by_cases hne : rest = []
  · subst hne
    rfl
  · rw [cutToken_all (by simp) hne, if_neg hne]

/-! ### The server and the port -/

variable {u : Url} {ulServerBufferLength : Nat}

theorem isDigit_ofByte {b : UInt8} (h : 48 ≤ b ∧ b ≤ 57) : (Char.ofNat b.toNat).isDigit := by
  have hlow : 48 ≤ b.toNat := UInt8.le_iff_toNat_le.mp h.1
  have hhigh : b.toNat ≤ 57 := UInt8.le_iff_toNat_le.mp h.2
  exact (by decide : ∀ n < 58, 48 ≤ n → (Char.ofNat n).isDigit) _ (by omega) hlow

/-- `atol` gives the number of a port that a `long` holds, and no other one. -/
theorem atol_port {digits : List UInt8} (hne : digits ≠ [])
    (hdigits : ∀ c ∈ digits, 48 ≤ c ∧ c ≤ 57) :
    atol digits = (Url.portNumber digits : Int) ↔
      (Url.portNumber digits : Int) ≤ Stdio.longMax := by
  have hnumeral : Stdio.IsNumeral (digits.map fun b => Char.ofNat b.toNat) := by
    refine ⟨fun h => hne (List.map_eq_nil_iff.mp h), fun c hc => ?_⟩
    obtain ⟨b, hb, rfl⟩ := List.mem_map.mp hc
    exact isDigit_ofByte (hdigits b hb)
  show Stdio.atol _ = _ ↔ _
  rw [Stdio.atol_eq_min hnumeral]
  show min _ (Url.portNumber digits : Int) = _ ↔ _
  omega

/-- A buffer of the caller with room for the server. -/
theorem serverAndPort_authority (u : Url) (hroom : u.server.length + 1 ≤ ulServerBufferLength) :
    serverAndPort u.authority ulServerBufferLength
      = some (u.server, u.port.elim (-1) atol) := by
  have hfree := u.server_free.2.1
  unfold serverAndPort Url.authority Url.portText
  cases u.port with
  | none =>
    simp only [Option.elim_none, List.append_nil]
    rw [List.idxOf?_eq_none_iff.mpr hfree]
    dsimp only
    rw [if_neg (by omega)]
  | some digits =>
    simp only [Option.elim_some]
    rw [idxOf?_of_mem (by simp), List.idxOf_append_of_notMem hfree]
    dsimp only
    simp only [List.idxOf_cons_self, Nat.add_zero]
    rw [if_neg (by omega), List.take_left, ← List.drop_drop, List.drop_left]
    rfl

/-! ### The whole URL -/

/-- What is found behind the server: the path and the parameters. -/
def pathAndParameters (pServer : List UInt8) (lPort : Int) (rest : List UInt8) :
    Except ParseURLError ParsedURL :=
  match cutToken [63] rest with
  | none => .error .stringTokenizerNextTokenFailed
  | some (pToken, rest) => .ok ⟨pServer, lPort, 47 :: pToken, parametersOf rest⟩

/-- The protocol is passed over, whatever it is. -/
theorem partsOf_text (u : Url) (ulServerBufferLength : Nat) :
    partsOf u.text ulServerBufferLength =
      match cutToken [47] (u.authority ++ 47 :: (u.path ++ u.paramsText)) with
      | none => .error .stringTokenizerNextTokenFailed
      | some (pToken, rest) =>
        match serverAndPort pToken ulServerBufferLength with
        | none => .error .activationWrong
        | some (pServer, lPort) => pathAndParameters pServer lPort rest := by
  have hprotocol : cutToken [47] u.text
      = some (u.scheme ++ [58], 47 :: (u.authority ++ 47 :: (u.path ++ u.paramsText))) := by
    have htext : u.text = (u.scheme ++ [58]) ++ 47 :: 47 ::
        (u.authority ++ 47 :: (u.path ++ u.paramsText)) := by
      rw [List.append_assoc]
      rfl
    rw [htext]
    refine cutToken_append (fun c hc => ?_) (by simp) List.mem_cons_self
    rw [List.mem_singleton]
    rintro rfl
    rcases List.mem_append.mp hc with hc | hc
    · exact u.scheme_free.1 hc
    · exact absurd (List.mem_singleton.mp hc) (by decide)
  unfold partsOf
  rw [hprotocol]
  dsimp only
  rw [cutToken_skip List.mem_cons_self]
  rfl

/-- With a path, the parameters are behind it. -/
theorem pathAndParameters_eq (u : Url) (hpath : u.path ≠ []) (pServer : List UInt8) (lPort : Int) :
    pathAndParameters pServer lPort (u.path ++ u.paramsText)
      = .ok ⟨pServer, lPort, 47 :: u.path, u.parts.bURLParameters⟩ := by
  have hfree : ∀ c ∈ u.path, c ∉ [(63 : UInt8)] := by
    intro c hc hmem
    obtain rfl := List.mem_singleton.mp hmem
    exact u.path_free.1 hc
  unfold pathAndParameters Url.paramsText Url.parts Url.paramsText
  cases u.params with
  | none =>
    simp only [Option.elim_none, List.append_nil]
    rw [cutToken_all hfree hpath]
    rfl
  | some p =>
    simp only [Option.elim_some]
    rw [cutToken_append hfree hpath List.mem_cons_self]
    dsimp only
    rw [parametersOf_eq]
    rfl

/-- What is found in a text is shorter than the text, but for the slash and one question mark. -/
theorem length_pathAndParameters {pServer s : List UInt8} {lPort : Int} {r : ParsedURL}
    (h : pathAndParameters pServer lPort s = .ok r) :
    r.bRelativePathWithoutParameters ≠ [47] ∧
      r.bRelativePathWithoutParameters.length + r.bURLParameters.length ≤ s.length + 1 := by
  unfold pathAndParameters at h
  cases hcut : cutToken [63] s with
  | none =>
    rw [hcut] at h
    cases h
  | some cut =>
    obtain ⟨pToken, rest⟩ := cut
    rw [hcut] at h
    cases h
    obtain ⟨hshort, hlong⟩ := cutToken_lengths hcut
    have hne := cutToken_nonempty hcut
    refine ⟨fun h => hne (List.cons.inj h).2, ?_⟩
    dsimp only
    rw [List.length_cons, length_parametersOf]
    split
    · omega
    · next hrest =>
      have := hlong hrest
      omega

/-- Without server and port the parts of the URL are not found: what is taken for the server
is missing in the path and the parameters. -/
theorem partsOf_noAuthority (u : Url) (h : u.authority = []) (ulServerBufferLength : Nat) :
    partsOf u.text ulServerBufferLength ≠ .ok u.parts := by
  intro heq
  rw [partsOf_text, h, List.nil_append, cutToken_skip List.mem_cons_self] at heq
  cases hcut : cutToken [47] (u.path ++ u.paramsText) with
  | none =>
    rw [hcut] at heq
    cases heq
  | some cut =>
    obtain ⟨pToken, rest⟩ := cut
    rw [hcut] at heq
    dsimp only at heq
    split at heq
    · cases heq
    · obtain ⟨hne, hlength⟩ := length_pathAndParameters heq
      obtain ⟨-, hlong⟩ := cutToken_lengths hcut
      have hpath := List.length_pos_iff.mpr fun h => hne (congrArg (47 :: ·) h)
      have htoken := List.length_pos_iff.mpr (cutToken_nonempty hcut)
      have hparams := u.length_paramsText_le
      have hrest := hlong (by
        rintro rfl
        cases heq)
      simp only [Url.parts, List.length_cons, List.length_append] at hlength hrest hparams
      omega

/-- **The parts of a URL.**  With room for the server, `parseURL` gives the parts of a URL if and only
if it has a path, a server or a port, and no port that is greater than a `long`. -/
theorem parseURL_parts_iff (u : Url) {ulServerBufferLength : Nat}
    (hroom : u.server.length + 1 ≤ ulServerBufferLength) :
    parseURL u.pURL ulServerBufferLength = .ok (.ok u.parts) ↔ u.Separable := by
  rw [parseURL_eq, Except.ok.injEq]
  show partsOf u.text ulServerBufferLength = _ ↔ _
  by_cases hauthority : u.authority = []
  · exact iff_of_false (partsOf_noAuthority u hauthority _) fun h => h.2.1 hauthority
  have hfree : ∀ c ∈ u.authority, c ∉ [(47 : UInt8)] := by
    intro c hc hmem
    obtain rfl := List.mem_singleton.mp hmem
    exact u.authority_free.1 hc
  rw [partsOf_text, cutToken_append hfree hauthority List.mem_cons_self]
  dsimp only
  rw [serverAndPort_authority u hroom]
  dsimp only
  by_cases hpath : u.path = []
  · refine iff_of_false (fun h => (length_pathAndParameters h).1 ?_) fun h => h.1 hpath
    exact congrArg (47 :: ·) hpath
  rw [pathAndParameters_eq u hpath, Except.ok.injEq]
  -- the ports are left to compare
  have hport : u.port.elim (-1) atol = u.parts.lPort ↔
      ∀ digits ∈ u.port, (Url.portNumber digits : Int) ≤ Stdio.longMax := by
    unfold Url.parts
    dsimp only
    cases hdigits : u.port with
    | none => simp
    | some digits =>
      obtain ⟨hne, hrange⟩ := u.port_digits digits hdigits
      simpa using atol_port hne hrange
  unfold Url.Separable
  rw [← hport]
  constructor
  · exact fun h => ⟨hpath, hauthority, congrArg ParsedURL.lPort h⟩
  · rintro ⟨-, -, h⟩
    rw [h]
    rfl

/-- `rtsp://h:554/a?b` and a buffer of two bytes. -/
def rtspUrl : Url where
  scheme := bytesOf "rtsp"
  server := bytesOf "h"
  port := some (bytesOf "554")
  path := bytesOf "a"
  params := some (bytesOf "b")
  scheme_free := by decide
  server_free := by decide
  port_digits := by decide +kernel
  path_free := by decide
  params_free := by decide

theorem parseURL_parts_iff_rtsp : parseURL rtspUrl.pURL 2 = .ok (.ok rtspUrl.parts) := by
  refine (parseURL_parts_iff rtspUrl (by decide)).mpr ⟨by decide, by decide, ?_⟩
  decide +kernel

/-- `http://h/?b`, with an empty path. -/
def rootUrl : Url where
  scheme := bytesOf "http"
  server := bytesOf "h"
  port := none
  path := []
  params := some (bytesOf "b")
  scheme_free := by decide
  server_free := by decide
  port_digits := by decide +kernel
  path_free := by decide
  params_free := by decide

/-- The parameters of a URL with an empty path are taken for its path. -/
theorem not_parseURL_parts_root :
    parseURL rootUrl.pURL 64 = .ok (.ok ⟨bytesOf "h", -1, bytesOf "/b", []⟩) ∧
      parseURL rootUrl.pURL 64 ≠ .ok (.ok rootUrl.parts) := by
  decide +kernel

end WebUtility

end CatraLibraries
