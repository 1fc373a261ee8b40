/-
# The scanner from one file to the next

The scanner keeps the text that it has fetched and not yet scanned from one `yyparse` to the next one,
until it reports the end of the text.  Only `glBufferToParseIndex` is set back by
`ConfigurationFile::init`; `glCurrentLineNumber` is never set back.

`loads_eq` is about any files whose end is reported to the parser: each is read as if it were the first
one, but for the number of the line in an error.
-/
import CatraLibraries.ConfigurationFile.Parser

namespace CatraLibraries

namespace ConfigurationFile

open Lexer

variable {κ σ ι : Type} {A : Actions κ σ ι} {text rest file : List Char} {st : State κ σ ι}

/-! ### The parser calls the scanner -/

/-- The parser on a text, and the text behind the token at which it stopped; `none` when the scanner
has reported the end.  A token is scanned when the parser asks for it. -/
def runText (A : Actions κ σ ι) : Nat → State κ σ ι → List Char →
    Except ParserError κ × Option (List Char)
  | 0, st, _ => (accept A st, none)
  | fuel + 1, st, text =>
    match nextToken rules text with
    | none => (accept A st, none)
    | some (token, rest) =>
      match step A st token with
      | .error e => (.error e, some rest)
      | .ok st => runText A fuel st rest

/-- `yyparse`; the first action comes before the first token. -/
def yyparseText (A : Actions κ σ ι) (text : List Char) :
    Except ParserError κ × Option (List Char) :=
  match A.newConfig with
  | .error e => (.error e, some text)
  | .ok cfg => runText A (text.length + 1) (.sections cfg) text

theorem runText_fst (fuel : Nat) (h : text.length < fuel) :
    (runText A fuel st text).1 = run A (yylex text) st := by
  induction fuel generalizing st text with
  | zero => exact absurd h (Nat.not_lt_zero _)
  | succ fuel ih =>
    unfold runText yylex
    cases hnext : nextToken rules text with
    | none =>
      rw [scan_of_nextToken_none hnext]
      rfl
    | some r =>
      obtain ⟨token, rest⟩ := r
      have hlength := (nextToken_length hnext).1
      rw [scan_of_nextToken_some hnext]
      dsimp only
      unfold run
      cases step A st token with
      | error e => rfl
      | ok st' => exact ih (Nat.lt_of_lt_of_le hlength (Nat.le_of_lt_succ h))

/-- **Token after token is the same as all the tokens at once.** -/
theorem yyparseText_fst (A : Actions κ σ ι) (text : List Char) :
    (yyparseText A text).1 = yyparse A (yylex text) := by
  unfold yyparseText yyparse
  cases A.newConfig with
  | error e => rfl
  | ok cfg => exact runText_fst _ (Nat.lt_succ_self _)

/-- A parser that succeeds has seen the end. -/
theorem runText_snd_of_ok {fuel : Nat} {cfg : κ} (h : (runText A fuel st text).1 = .ok cfg) :
    (runText A fuel st text).2 = none := by
  induction fuel generalizing st text with
  | zero => rfl
  | succ fuel ih =>
    unfold runText at h ⊢
    cases hnext : nextToken rules text with
    | none => rfl
    | some r =>
      obtain ⟨token, rest⟩ := r
      rw [hnext] at h
      dsimp only at h ⊢
      cases hstep : step A st token with
      | error e =>
        rw [hstep] at h
        cases h
      | ok st' =>
        rw [hstep] at h
        exact ih h

theorem yyparseText_snd_of_ok {cfg : κ} (h : yyparse A (yylex text) = .ok cfg) :
    (yyparseText A text).2 = none := by
  rw [← yyparseText_fst] at h
  unfold yyparseText at h ⊢
  cases hnew : A.newConfig with
  | error e =>
    rw [hnew] at h
    cases h
  | ok cfg' =>
    rw [hnew] at h
    exact runText_snd_of_ok h

/-! ### What is kept -/

/-- The globals of the scanner between two files. -/
structure Scanner where
  /-- fetched and not scanned -/
  unread : List Char
  /-- `YY_BUFFER_EOF_PENDING`: the end was met behind `unread`, and is to be reported -/
  endPending : Bool
  glCurrentLineNumber : Nat
  deriving DecidableEq, Repr

/-- How far the scanner has fetched behind the token at which the parser stopped: so many characters,
or to the end, which it met. -/
inductive Fetched
  | part (count : Nat)
  | toTheEnd
  deriving DecidableEq, Repr

/-- Before the first file. -/
def Scanner.initial : Scanner := ⟨[], false, 1⟩

namespace Scanner

/-- The text that the parser sees. -/
def toParse (scanner : Scanner) (file : List Char) : List Char :=
  if scanner.endPending then scanner.unread else scanner.unread ++ file

/-- What is kept when the parser has stopped in front of `rest`. -/
def stopped (scanner : Scanner) (file : List Char) (fetched : Fetched) :
    Option (List Char) → List Char × Bool
  | none => ([], false)
  | some rest =>
    if scanner.endPending then (rest, true)
    else
      match fetched with
      | .part count => (rest.take (max count (rest.length - file.length)), false)
      | .toTheEnd => (rest, true)

/-- The number of lines that end in front of `rest`. -/
def linesScanned (text : List Char) (rest : Option (List Char)) : Nat :=
  (text.take (text.length - (rest.getD []).length)).count '\n'

/-- A file is parsed; an error comes with the number of its line. -/
def load (A : Actions κ σ ι) (scanner : Scanner) (file : List Char) (fetched : Fetched) :
    Except (ParserError × Nat) κ × Scanner :=
  let text := scanner.toParse file
  let (result, rest) := yyparseText A text
  let line := scanner.glCurrentLineNumber + linesScanned text rest
  let (unread, endPending) := scanner.stopped file fetched rest
  (result.mapError (·, line), ⟨unread, endPending, line⟩)

/-- Files one after the other. -/
def loads (A : Actions κ σ ι) : Scanner → List (List Char × Fetched) →
    List (Except (ParserError × Nat) κ) × Scanner
  | scanner, [] => ([], scanner)
  | scanner, (file, fetched) :: files =>
    let (result, scanner) := load A scanner file fetched
    let (results, scanner) := loads A scanner files
    (result :: results, scanner)

/-! ### Nothing left -/

/-- Nothing of an earlier file is left. -/
structure Fresh (scanner : Scanner) : Prop where
  unread : scanner.unread = []
  endPending : scanner.endPending = false

variable {scanner : Scanner} {fetched : Fetched}

theorem Fresh.toParse (h : scanner.Fresh) (file : List Char) : scanner.toParse file = file := by
  unfold Scanner.toParse
  rw [h.endPending, h.unread]
  rfl

/-- The lines of a file up to where the parser stops. -/
def linesRead (A : Actions κ σ ι) (file : List Char) : Nat :=
  linesScanned file (yyparseText A file).2

/-- A file that is read alone, from some line on. -/
def alone (A : Actions κ σ ι) (line : Nat) (file : List Char) : Except (ParserError × Nat) κ :=
  (yyparse A (yylex file)).mapError (·, line + linesRead A file)

/-- The scanner reports the end of the file to the parser, be the file in order or not. -/
def ReadToTheEnd (A : Actions κ σ ι) (file : List Char) : Prop := (yyparseText A file).2 = none

instance (A : Actions κ σ ι) (file : List Char) : Decidable (ReadToTheEnd A file) :=
  inferInstanceAs (Decidable (_ = none))

theorem readToTheEnd_of_ok {cfg : κ} (h : yyparse A (yylex file) = .ok cfg) : ReadToTheEnd A file :=
  yyparseText_snd_of_ok h

/-- What is left stands in front of the file. -/
theorem load_fst (A : Actions κ σ ι) (scanner : Scanner) (file : List Char) (fetched : Fetched) :
    (scanner.load A file fetched).1 =
      alone A scanner.glCurrentLineNumber (scanner.toParse file) := by
  unfold Scanner.load alone linesRead
  rw [← yyparseText_fst]

theorem glCurrentLineNumber_load (A : Actions κ σ ι) (scanner : Scanner) (file : List Char)
    (fetched : Fetched) :
    (scanner.load A file fetched).2.glCurrentLineNumber =
      scanner.glCurrentLineNumber + linesRead A (scanner.toParse file) :=
  rfl

/-- **After a file that was read to its end nothing is left**, whatever was left before it. -/
theorem fresh_load (h : ReadToTheEnd A (scanner.toParse file)) : (scanner.load A file fetched).2.Fresh := by
  unfold ReadToTheEnd at h
  unfold Scanner.load
  dsimp only
  rw [h]
  exact ⟨rfl, rfl⟩

/-- The number of the line at which each file begins. -/
def firstLines (A : Actions κ σ ι) : Nat → List (List Char × Fetched) → List (List Char × Nat)
  | _, [] => []
  | line, (file, _) :: files => (file, line) :: firstLines A (line + linesRead A file) files

/-- **Files whose end is reported**, but for the last one perhaps, are read as each would be alone; only
the line of an error is counted from the first file on. -/
theorem loads_eq (h : scanner.Fresh) (files : List (List Char × Fetched))
    (hfiles : ∀ x ∈ files.dropLast, ReadToTheEnd A x.1) :
    (loads A scanner files).1 =
      (firstLines A scanner.glCurrentLineNumber files).map fun x => alone A x.2 x.1 := by
  induction files generalizing scanner with
  | nil => rfl
  | cons x files ih =>
    obtain ⟨file, fetched⟩ := x
    have hresult := load_fst A scanner file fetched
    have hline := glCurrentLineNumber_load A scanner file fetched
    rw [h.toParse] at hresult hline
    unfold loads firstLines
    dsimp only
    rw [List.map_cons, hresult, ← hline]
    congr 1
    cases files with
    | nil => rfl
    | cons y files =>
      rw [List.dropLast_cons_cons] at hfiles
      refine ih ?_ fun z hz => hfiles z (List.mem_cons_of_mem _ hz)
      refine fresh_load ?_
      rw [h.toParse]
      exact hfiles _ List.mem_cons_self

theorem loads_eq_twoFiles :
    (loads (contentActions true) .initial [(['[', 'a', ']', '\n'], .part 0), (['='], .part 0)]).1 =
      [.ok [⟨true, ['a'], [], none, []⟩], .error (.syntaxError, 2)] :=
  (loads_eq (A := contentActions true) ⟨rfl, rfl⟩ [(['[', 'a', ']', '\n'], .part 0), (['='], .part 0)]
    (by decide +kernel)).trans (by decide +kernel)

end Scanner

end ConfigurationFile

end CatraLibraries
