/-
# The parser of configuration files

`ConfigurationFile/src/configurationParser.yy`.  The grammar has no nested constructs, and its
LALR automaton is a machine with few states: `step` shifts one token and makes the reductions that
come before it.  A state holds the values of the symbols on the stack.

The actions are a parameter.  `objectActions` are those of the file, on the classes of
`Configuration`; `contentActions` are the same on contents.  `yyparse_objects` relates them.
-/
import CatraLibraries.Configuration.Config
import CatraLibraries.ConfigurationFile.Scanner

namespace CatraLibraries

namespace ConfigurationFile

open Configuration

/-- A syntax error, or `YYABORT` in an action. -/
inductive ParserError
  | syntaxError
  | action (e : ConfigurationError)
  deriving DecidableEq, Repr

/-- The actions of the grammar, on a configuration, a section and an item. -/
structure Actions (κ σ ι : Type) where
  /-- `sections: /* empty */` -/
  newConfig : Except ParserError κ
  /-- `sections: sections section` -/
  appendSection : κ → σ → Except ParserError κ
  /-- `section: sectionComments SECTION_BEGIN STRING SECTION_END sectionDate items` -/
  endSection : σ → (pComments pName pDate : List Char) → Except ParserError σ
  /-- `items: /* empty */` -/
  newSection : Except ParserError σ
  /-- `items: items item` -/
  appendItem : σ → ι → Except ParserError σ
  /-- `item: itemComments STRING '=' value` -/
  endItem : ι → (pComments pName : List Char) → Except ParserError ι
  /-- `value: ITEMSLIST_BEGIN ITEMSLIST_END`, `valuesList: /* empty */` -/
  newItem : Except ParserError ι
  /-- `valuesList: valuesList ',' STRING` -/
  appendValue : ι → List Char → Except ParserError ι
  /-- `value: ITEMSLIST_BEGIN STRING valuesList ITEMSLIST_END` -/
  insertFirst : ι → List Char → Except ParserError ι

/-- The values of `sectionComments`, the name and `sectionDate`. -/
structure Header where
  pComments : List Char
  pName : List Char
  pDate : List Char

/-- What is on the stack while items are read. -/
structure Items (κ σ : Type) where
  cfg : κ
  header : Header
  pcsSection : σ

/-- The states of the automaton, after the symbol that names them. -/
inductive State (κ σ ι : Type)
  | sections (cfg : κ)
  | sectionComments (cfg : κ) (pComments : List Char)
  | sectionBegin (cfg : κ) (pComments : List Char)
  | sectionName (cfg : κ) (pComments pName : List Char)
  | sectionEnd (cfg : κ) (pComments pName : List Char)
  | sectionDateBegin (cfg : κ) (pComments pName : List Char)
  | sectionDate (cfg : κ) (pComments pName pDate : List Char)
  | items (x : Items κ σ)
  | itemComments (x : Items κ σ) (pComments : List Char)
  | itemName (x : Items κ σ) (pComments pName : List Char)
  | itemEqual (x : Items κ σ) (pComments pName : List Char)
  | itemsListBegin (x : Items κ σ) (pComments pName : List Char)
  | valuesList (x : Items κ σ) (pComments pName pFirst : List Char) (pciItem : ι)
  | valuesComma (x : Items κ σ) (pComments pName pFirst : List Char) (pciItem : ι)

/-- `sectionComments: sectionComments SECTIONCOMMENT`, `itemComments: itemComments ITEMCOMMENT`. -/
def joinComments (pComments pComment : List Char) : List Char :=
  if pComments.length = 0 then pComment else pComments ++ '\n' :: pComment

section

variable {κ σ ι : Type} (A : Actions κ σ ι)

/-- The reduction to `section` and to `sections`. -/
def closeSection (x : Items κ σ) : Except ParserError κ := do
  let pcsSection ← A.endSection x.pcsSection x.header.pComments x.header.pName x.header.pDate
  A.appendSection x.cfg pcsSection

/-- The reduction to `item` and to `items`. -/
def closeItem (x : Items κ σ) (pComments pName : List Char) (pciItem : ι) :
    Except ParserError (State κ σ ι) := do
  let pciItem ← A.endItem pciItem pComments pName
  let pcsSection ← A.appendItem x.pcsSection pciItem
  return .items { x with pcsSection := pcsSection }

/-- The reduction to `items` behind the header of a section. -/
def openItems (cfg : κ) (header : Header) : Except ParserError (Items κ σ) := do
  let pcsSection ← A.newSection
  return ⟨cfg, header, pcsSection⟩

/-- A token where a section may begin. -/
def onSections (cfg : κ) : Token → Except ParserError (State κ σ ι)
  | .sectionComment pComment => .ok (.sectionComments cfg (joinComments [] pComment))
  | .sectionBegin => .ok (.sectionBegin cfg [])
  | _ => .error .syntaxError

/-- A token where an item may begin: another one ends the section. -/
def onItems (x : Items κ σ) : Token → Except ParserError (State κ σ ι)
  | .itemComment pComment => .ok (.itemComments x (joinComments [] pComment))
  | .string pName => .ok (.itemName x [] pName)
  | token => do onSections (← closeSection A x) token

/-- One token. -/
def step : State κ σ ι → Token → Except ParserError (State κ σ ι)
  | .sections cfg, token => onSections cfg token
  | .sectionComments cfg pComments, .sectionComment pComment =>
    .ok (.sectionComments cfg (joinComments pComments pComment))
  | .sectionComments cfg pComments, .sectionBegin => .ok (.sectionBegin cfg pComments)
  | .sectionBegin cfg pComments, .string pName => .ok (.sectionName cfg pComments pName)
  | .sectionName cfg pComments pName, .sectionEnd => .ok (.sectionEnd cfg pComments pName)
  | .sectionEnd cfg pComments pName, .sectionDateBegin =>
    .ok (.sectionDateBegin cfg pComments pName)
  | .sectionEnd cfg pComments pName, token => do
    onItems A (← openItems A cfg ⟨pComments, pName, []⟩) token
  | .sectionDateBegin cfg pComments pName, .sectionDate pDate =>
    .ok (.sectionDate cfg pComments pName pDate)
  | .sectionDate cfg pComments pName pDate, .sectionDateEnd => do
    return .items (← openItems A cfg ⟨pComments, pName, pDate⟩)
  | .items x, token => onItems A x token
  | .itemComments x pComments, .itemComment pComment =>
    .ok (.itemComments x (joinComments pComments pComment))
  | .itemComments x pComments, .string pName => .ok (.itemName x pComments pName)
  | .itemName x pComments pName, .char '=' => .ok (.itemEqual x pComments pName)
  | .itemEqual x pComments pName, .string pValue => do
    let pciItem ← A.newItem
    closeItem A x pComments pName (← A.appendValue pciItem pValue)
  | .itemEqual x pComments pName, .itemsListBegin => .ok (.itemsListBegin x pComments pName)
  | .itemsListBegin x pComments pName, .itemsListEnd => do
    closeItem A x pComments pName (← A.newItem)
  | .itemsListBegin x pComments pName, .string pFirst => do
    return .valuesList x pComments pName pFirst (← A.newItem)
  | .valuesList x pComments pName pFirst pciItem, .char ',' =>
    .ok (.valuesComma x pComments pName pFirst pciItem)
  | .valuesList x pComments pName pFirst pciItem, .itemsListEnd => do
    closeItem A x pComments pName (← A.insertFirst pciItem pFirst)
  | .valuesComma x pComments pName pFirst pciItem, .string pValue => do
    return .valuesList x pComments pName pFirst (← A.appendValue pciItem pValue)
  | _, _ => .error .syntaxError

theorem step_itemName_of_ne (x : Items κ σ) (pComments pName : List Char) {c : Char} (hc : c ≠ '=') :
    step A (.itemName x pComments pName) (.char c) = .error .syntaxError := by
  unfold step
  split
  all_goals simp_all

theorem step_valuesList_of_ne (x : Items κ σ) (pComments pName pFirst : List Char) (pciItem : ι)
    {c : Char} (hc : c ≠ ',') :
    step A (.valuesList x pComments pName pFirst pciItem) (.char c) = .error .syntaxError := by
  unfold step
  split
  all_goals simp_all

/-- The end of the text. -/
def accept : State κ σ ι → Except ParserError κ
  | .sections cfg => .ok cfg
  | .sectionEnd cfg pComments pName => do
    closeSection A (← openItems A cfg ⟨pComments, pName, []⟩)
  | .items x => closeSection A x
  | _ => .error .syntaxError

/-- The tokens from a state on. -/
def run : List Token → State κ σ ι → Except ParserError κ
  | [], st => accept A st
  | token :: tokens, st => do run tokens (← step A st token)

/-- `yyparse`. -/
def yyparse (tokens : List Token) : Except ParserError κ := do
  run A tokens (.sections (← A.newConfig))

end

/-! ### The actions of the file -/

/-- What the parser is told by its caller. -/
structure Globals where
  gbIsCaseSensitive : Bool
  glCfgSectionsToAllocOnOverflow : Int
  glCfgItemsToAllocOnOverflow : Int
  glBufferToAllocOnOverflow : Int

/-- The call of a method, and `YYABORT` when it fails. -/
def call {α : Type} (e : ConfigurationError) : Outcome α → Except ParserError α
  | (.error _, _) => .error (.action e)
  | (.ok (), t) => .ok t

/-- The actions as they are written in the file. -/
def objectActions (g : Globals) :
    Actions (Object Config) (Object ConfigurationSection) (Object ConfigurationItem) where
  newConfig := call .cfgConfigInitFailed
    (Config.init (some []) g.gbIsCaseSensitive g.glCfgSectionsToAllocOnOverflow .builded)
  appendSection cfg pcsSection := do
    let cfg ← call .cfgConfigAppendCfgSectionFailed (Config.appendCfgSection (some pcsSection)
      g.glCfgItemsToAllocOnOverflow g.glBufferToAllocOnOverflow cfg)
    let _ ← call .cfgConfigurationSectionFinishFailed (ConfigurationSection.finish pcsSection)
    return cfg
  endSection pcsSection pComments pName pDate := do
    let t ← call .cfgConfigurationSectionModifySectionNameFailed
      (ConfigurationSection.modifySectionName (some pName) pcsSection)
    let t ← call .cfgConfigurationSectionModifySectionCommentFailed
      (ConfigurationSection.modifySectionComment (some pComments) t)
    call .cfgConfigurationSectionModifySectionDateFailed
      (ConfigurationSection.modifySectionDate (if pDate = [] then none else some pDate) t)
  newSection := call .cfgConfigurationSectionInitFailed (ConfigurationSection.init (some [])
    (some []) none g.gbIsCaseSensitive g.glCfgItemsToAllocOnOverflow .builded)
  appendItem pcsSection pciItem := do
    let t ← call .cfgConfigurationSectionAppendCfgItemFailed
      (ConfigurationSection.appendCfgItem (some pciItem) g.glBufferToAllocOnOverflow pcsSection)
    let _ ← call .cfgConfigurationItemFinishFailed (ConfigurationItem.finish pciItem)
    return t
  endItem pciItem pComments pName := do
    let t ← call .cfgConfigurationItemModifyItemNameFailed
      (ConfigurationItem.modifyItemName (some pName) pciItem)
    call .cfgConfigurationItemModifyItemCommentFailed
      (ConfigurationItem.modifyItemComment (some pComments) t)
  newItem := call .cfgConfigurationItemInitFailed (ConfigurationItem.init (some []) (some [])
    g.gbIsCaseSensitive g.glBufferToAllocOnOverflow .builded)
  appendValue pciItem pValue := call .cfgConfigurationItemAppendItemValueFailed
    (ConfigurationItem.appendItemValue (some pValue) pciItem)
  insertFirst pciItem pValue := call .cfgConfigurationItemInsertItemValueFailed
    (ConfigurationItem.insertItemValue (some pValue) 0 pciItem)

/-- The same on contents. -/
def contentActions (b : Bool) : Actions (List CfgSection) CfgSection CfgItem where
  newConfig := .ok []
  appendSection ss s := .ok (ss ++ [s])
  endSection s pComments pName pDate :=
    if pDate = [] then .ok { s with name := pName, comment := pComments, date := none }
    else if ConfigurationSection.isValidDate pDate then
      .ok { s with name := pName, comment := pComments, date := some pDate }
    else .error (.action .cfgConfigurationSectionModifySectionDateFailed)
  newSection := .ok ⟨b, [], [], none, []⟩
  appendItem s i := .ok { s with items := s.items ++ [i] }
  endItem i pComments pName := .ok { i with name := pName, comment := pComments }
  newItem := .ok ⟨b, [], [], []⟩
  appendValue i pValue := .ok { i with values := i.values ++ [pValue] }
  insertFirst i pValue := .ok { i with values := pValue :: i.values }

/-! ### Related actions -/

/-- Both computations end alike, and with related values. -/
inductive ExceptRel {ε α β : Type} (R : α → β → Prop) : Except ε α → Except ε β → Prop
  | ok {a : α} {b : β} (h : R a b) : ExceptRel R (.ok a) (.ok b)
  | error (e : ε) : ExceptRel R (.error e) (.error e)

theorem ExceptRel.bind {ε α β α' β' : Type} {R : α → β → Prop} {S : α' → β' → Prop}
    {x : Except ε α} {y : Except ε β} {f : α → Except ε α'} {g : β → Except ε β'}
    (h : ExceptRel R x y) (hfg : ∀ a b, R a b → ExceptRel S (f a) (g b)) :
    ExceptRel S (x >>= f) (y >>= g) := by
  cases h with
  | ok h => exact hfg _ _ h
  | error e => exact .error e

variable {κ σ ι κ' σ' ι' : Type}

/-- Actions that agree under a relation of their values. -/
structure ActionsRel (A : Actions κ σ ι) (B : Actions κ' σ' ι') (R : κ → κ' → Prop)
    (S : σ → σ' → Prop) (T : ι → ι' → Prop) : Prop where
  newConfig : ExceptRel R A.newConfig B.newConfig
  appendSection : ∀ {c c' s s'}, R c c' → S s s' →
    ExceptRel R (A.appendSection c s) (B.appendSection c' s')
  endSection : ∀ {s s'} (pComments pName pDate : List Char), S s s' →
    ExceptRel S (A.endSection s pComments pName pDate) (B.endSection s' pComments pName pDate)
  newSection : ExceptRel S A.newSection B.newSection
  appendItem : ∀ {s s' i i'}, S s s' → T i i' →
    ExceptRel S (A.appendItem s i) (B.appendItem s' i')
  endItem : ∀ {i i'} (pComments pName : List Char), T i i' →
    ExceptRel T (A.endItem i pComments pName) (B.endItem i' pComments pName)
  newItem : ExceptRel T A.newItem B.newItem
  appendValue : ∀ {i i'} (pValue : List Char), T i i' →
    ExceptRel T (A.appendValue i pValue) (B.appendValue i' pValue)
  insertFirst : ∀ {i i'} (pValue : List Char), T i i' →
    ExceptRel T (A.insertFirst i pValue) (B.insertFirst i' pValue)

/-- The same symbols with related values. -/
structure ItemsRel (R : κ → κ' → Prop) (S : σ → σ' → Prop) (x : Items κ σ) (x' : Items κ' σ') :
    Prop where
  cfg : R x.cfg x'.cfg
  header : x.header = x'.header
  pcsSection : S x.pcsSection x'.pcsSection

inductive StateRel (R : κ → κ' → Prop) (S : σ → σ' → Prop) (T : ι → ι' → Prop) :
    State κ σ ι → State κ' σ' ι' → Prop
  | sections {c c'} (h : R c c') : StateRel R S T (.sections c) (.sections c')
  | sectionComments {c c'} (h : R c c') (p) :
    StateRel R S T (.sectionComments c p) (.sectionComments c' p)
  | sectionBegin {c c'} (h : R c c') (p) : StateRel R S T (.sectionBegin c p) (.sectionBegin c' p)
  | sectionName {c c'} (h : R c c') (p n) : StateRel R S T (.sectionName c p n) (.sectionName c' p n)
  | sectionEnd {c c'} (h : R c c') (p n) : StateRel R S T (.sectionEnd c p n) (.sectionEnd c' p n)
  | sectionDateBegin {c c'} (h : R c c') (p n) :
    StateRel R S T (.sectionDateBegin c p n) (.sectionDateBegin c' p n)
  | sectionDate {c c'} (h : R c c') (p n d) :
    StateRel R S T (.sectionDate c p n d) (.sectionDate c' p n d)
  | items {x x'} (h : ItemsRel R S x x') : StateRel R S T (.items x) (.items x')
  | itemComments {x x'} (h : ItemsRel R S x x') (p) :
    StateRel R S T (.itemComments x p) (.itemComments x' p)
  | itemName {x x'} (h : ItemsRel R S x x') (p n) :
    StateRel R S T (.itemName x p n) (.itemName x' p n)
  | itemEqual {x x'} (h : ItemsRel R S x x') (p n) :
    StateRel R S T (.itemEqual x p n) (.itemEqual x' p n)
  | itemsListBegin {x x'} (h : ItemsRel R S x x') (p n) :
    StateRel R S T (.itemsListBegin x p n) (.itemsListBegin x' p n)
  | valuesList {x x' i i'} (h : ItemsRel R S x x') (p n f) (hi : T i i') :
    StateRel R S T (.valuesList x p n f i) (.valuesList x' p n f i')
  | valuesComma {x x' i i'} (h : ItemsRel R S x x') (p n f) (hi : T i i') :
    StateRel R S T (.valuesComma x p n f i) (.valuesComma x' p n f i')

variable {A : Actions κ σ ι} {B : Actions κ' σ' ι'} {R : κ → κ' → Prop} {S : σ → σ' → Prop}
  {T : ι → ι' → Prop} {x : Items κ σ} {x' : Items κ' σ'} {c : κ} {c' : κ'} {i : ι} {i' : ι'}
  {st : State κ σ ι} {st' : State κ' σ' ι'}

theorem closeSection_rel (hA : ActionsRel A B R S T) (h : ItemsRel R S x x') :
    ExceptRel R (closeSection A x) (closeSection B x') := by
  unfold closeSection
  rw [h.header]
  exact (hA.endSection _ _ _ h.pcsSection).bind fun _ _ hs => hA.appendSection h.cfg hs

theorem closeItem_rel (hA : ActionsRel A B R S T) (h : ItemsRel R S x x') (hi : T i i')
    (pComments pName : List Char) :
    ExceptRel (StateRel R S T) (closeItem A x pComments pName i) (closeItem B x' pComments pName i') :=
  (hA.endItem pComments pName hi).bind fun _ _ hi =>
    (hA.appendItem h.pcsSection hi).bind fun _ _ hs => .ok (.items ⟨h.cfg, h.header, hs⟩)

theorem openItems_rel (hA : ActionsRel A B R S T) (h : R c c') (header : Header) :
    ExceptRel (ItemsRel R S) (openItems A c header) (openItems B c' header) :=
  hA.newSection.bind fun _ _ hs => .ok ⟨h, rfl, hs⟩

theorem onSections_rel (h : R c c') (token : Token) :
    ExceptRel (StateRel R S T) (onSections c token) (onSections c' token) := by
  cases token with
  | sectionComment p => exact .ok (.sectionComments h _)
  | sectionBegin => exact .ok (.sectionBegin h _)
  | _ => exact .error _

theorem onItems_rel (hA : ActionsRel A B R S T) (h : ItemsRel R S x x') (token : Token) :
    ExceptRel (StateRel R S T) (onItems A x token) (onItems B x' token) := by
  have hclose : ExceptRel (StateRel R S T) (closeSection A x >>= fun c => onSections c token)
      (closeSection B x' >>= fun c => onSections c token) :=
    (closeSection_rel hA h).bind fun _ _ hc => onSections_rel hc token
  cases token with
  | itemComment p => exact .ok (.itemComments h _)
  | string n => exact .ok (.itemName h _ _)
  | _ => exact hclose

/-- **One token keeps the states related.** -/
theorem step_rel (hA : ActionsRel A B R S T) (h : StateRel R S T st st') (token : Token) :
    ExceptRel (StateRel R S T) (step A st token) (step B st' token) := by
  cases h with
  | sections h => exact onSections_rel h token
  | sectionComments h p =>
    cases token with
    | sectionComment q => exact .ok (.sectionComments h _)
    | sectionBegin => exact .ok (.sectionBegin h _)
    | _ => exact .error _
  | sectionBegin h p =>
    cases token with
    | string n => exact .ok (.sectionName h _ _)
    | _ => exact .error _
  | sectionName h p n =>
    cases token with
    | sectionEnd => exact .ok (.sectionEnd h _ _)
    | _ => exact .error _
  | sectionEnd h p n =>
    have hitems : ∀ token, ExceptRel (StateRel R S T)
        (openItems A _ ⟨p, n, []⟩ >>= fun x => onItems A x token)
        (openItems B _ ⟨p, n, []⟩ >>= fun x => onItems B x token) := fun token =>
      (openItems_rel hA h _).bind fun _ _ hx => onItems_rel hA hx token
    cases token with
    | sectionDateBegin => exact .ok (.sectionDateBegin h _ _)
    | _ => exact hitems _
  | sectionDateBegin h p n =>
    cases token with
    | sectionDate d => exact .ok (.sectionDate h _ _ _)
    | _ => exact .error _
  | sectionDate h p n d =>
    cases token with
    | sectionDateEnd => exact (openItems_rel hA h _).bind fun _ _ hx => .ok (.items hx)
    | _ => exact .error _
  | items h => exact onItems_rel hA h token
  | itemComments h p =>
    cases token with
    | itemComment q => exact .ok (.itemComments h _)
    | string n => exact .ok (.itemName h _ _)
    | _ => exact .error _
  | itemName h p n =>
    cases token with
    | char c =>
      by_cases hc : c = '='
      · subst hc
        exact .ok (.itemEqual h _ _)
      · rw [step_itemName_of_ne A _ p n hc, step_itemName_of_ne B _ p n hc]
        exact .error _
    | _ => exact .error _
  | itemEqual h p n =>
    cases token with
    | string v =>
      exact hA.newItem.bind fun _ _ hi => (hA.appendValue v hi).bind fun _ _ hi =>
        closeItem_rel hA h hi p n
    | itemsListBegin => exact .ok (.itemsListBegin h _ _)
    | _ => exact .error _
  | itemsListBegin h p n =>
    cases token with
    | itemsListEnd => exact hA.newItem.bind fun _ _ hi => closeItem_rel hA h hi p n
    | string v => exact hA.newItem.bind fun _ _ hi => .ok (.valuesList h _ _ _ hi)
    | _ => exact .error _
  | valuesList h p n f hi =>
    cases token with
    | char c =>
      by_cases hc : c = ','
      · subst hc
        exact .ok (.valuesComma h _ _ _ hi)
      · rw [step_valuesList_of_ne A _ p n f _ hc, step_valuesList_of_ne B _ p n f _ hc]
        exact .error _
    | itemsListEnd => exact (hA.insertFirst f hi).bind fun _ _ hi => closeItem_rel hA h hi p n
    | _ => exact .error _
  | valuesComma h p n f hi =>
    cases token with
    | string v => exact (hA.appendValue v hi).bind fun _ _ hi => .ok (.valuesList h _ _ _ hi)
    | _ => exact .error _

theorem accept_rel (hA : ActionsRel A B R S T) (h : StateRel R S T st st') :
    ExceptRel R (accept A st) (accept B st') := by
  cases h with
  | sections h => exact .ok h
  | sectionEnd h p n => exact (openItems_rel hA h _).bind fun _ _ hx => closeSection_rel hA hx
  | items h => exact closeSection_rel hA h
  | _ => exact .error _

theorem run_rel (hA : ActionsRel A B R S T) (tokens : List Token) (h : StateRel R S T st st') :
    ExceptRel R (run A tokens st) (run B tokens st') := by
  induction tokens generalizing st st' with
  | nil => exact accept_rel hA h
  | cons token tokens ih => exact (step_rel hA h token).bind fun _ _ h => ih h

/-- **Related actions read the same.** -/
theorem yyparse_rel (hA : ActionsRel A B R S T) (tokens : List Token) :
    ExceptRel R (yyparse A tokens) (yyparse B tokens) :=
  hA.newConfig.bind fun _ _ hc => run_rel hA tokens (.sections hc)

/-! ### Objects and contents -/

/-- There is room for a section, an item and a value. -/
structure Globals.Valid (g : Globals) : Prop where
  sections : 1 ≤ g.glCfgSectionsToAllocOnOverflow
  items : 1 ≤ g.glCfgItemsToAllocOnOverflow
  buffer : 1 ≤ g.glBufferToAllocOnOverflow

variable {g : Globals}

/-- A call that succeeds. -/
theorem call_rel {α β : Type} {P : α → β → Prop} {e : ConfigurationError} {outcome : Outcome α}
    {t : α} {b : β} (h : outcome = (.ok (), t)) (hP : P t b) :
    ExceptRel P (call e outcome) (.ok b) := by
  rw [h]
  exact .ok hP

theorem objectActions_rel (hg : g.Valid) :
    ActionsRel (objectActions g) (contentActions g.gbIsCaseSensitive) Config.Holds
      ConfigurationSection.Holds ConfigurationItem.Holds where
  newConfig := by
    have hname : ([] : List Char).length ≤ 256 := Nat.zero_le _
    obtain ⟨t, h, hholds⟩ := Config.holds_init g.gbIsCaseSensitive hname hg.sections
    exact call_rel h hholds
  appendSection := by
    intro c c' s s' hc hs
    obtain ⟨t, h, hholds⟩ := Config.holds_appendCfgSection hc hs hg.items hg.buffer
    show ExceptRel _ (call _ _ >>= _) _
    rw [h, ConfigurationSection.finish_of_holds hs]
    exact .ok hholds
  endSection := by
    intro s s' pComments pName pDate hs
    obtain ⟨t₁, h₁, hholds₁⟩ := ConfigurationSection.holds_modifySectionName hs pName
    obtain ⟨t₂, h₂, hholds₂⟩ := ConfigurationSection.holds_modifySectionComment hholds₁ pComments
    show ExceptRel _ (call _ _ >>= fun _ => call _ _ >>= _) _
    rw [h₁]
    show ExceptRel _ (call _ (ConfigurationSection.modifySectionComment (some pComments) t₁) >>= _) _
    rw [h₂]
    show ExceptRel _ (call _ (ConfigurationSection.modifySectionDate
      (if pDate = [] then none else some pDate) t₂)) _
    unfold contentActions
    dsimp only
    by_cases hempty : pDate = []
    · have hnone : (none : Option (List Char)).all ConfigurationSection.isValidDate = true := rfl
      obtain ⟨t₃, h₃, hholds₃⟩ := ConfigurationSection.holds_modifySectionDate hholds₂ hnone
      rw [if_pos hempty, if_pos hempty]
      exact call_rel h₃ hholds₃
    · rw [if_neg hempty, if_neg hempty]
      by_cases hvalid : ConfigurationSection.isValidDate pDate = true
      · have hsome : (some pDate).all ConfigurationSection.isValidDate = true := hvalid
        obtain ⟨t₃, h₃, hholds₃⟩ := ConfigurationSection.holds_modifySectionDate hholds₂ hsome
        rw [if_pos hvalid]
        exact call_rel h₃ hholds₃
      · rw [if_neg hvalid, ConfigurationSection.modifySectionDate_eq_error hholds₂ hvalid]
        exact .error _
  newSection := by
    have hnone : (none : Option (List Char)).all ConfigurationSection.isValidDate = true := rfl
    obtain ⟨t, h, hholds⟩ :=
      ConfigurationSection.holds_init [] [] g.gbIsCaseSensitive hnone hg.items
    exact call_rel h hholds
  appendItem := by
    intro s s' i i' hs hi
    obtain ⟨t, h, hholds⟩ := ConfigurationSection.holds_appendCfgItem hs hi hg.buffer
    show ExceptRel _ (call _ _ >>= _) _
    rw [h, ConfigurationItem.finish_of_holds hi]
    exact .ok hholds
  endItem := by
    intro i i' pComments pName hi
    obtain ⟨t₁, h₁, hholds₁⟩ := ConfigurationItem.holds_modifyItemName hi pName
    obtain ⟨t₂, h₂, hholds₂⟩ := ConfigurationItem.holds_modifyItemComment hholds₁ pComments
    show ExceptRel _ (call _ _ >>= _) _
    rw [h₁]
    exact call_rel h₂ hholds₂
  newItem := by
    obtain ⟨t, h, hholds⟩ := ConfigurationItem.holds_init [] [] g.gbIsCaseSensitive hg.buffer
    exact call_rel h hholds
  appendValue := by
    intro i i' pValue hi
    obtain ⟨t, h, hholds⟩ := ConfigurationItem.holds_appendItemValue pValue hi
    exact call_rel h hholds
  insertFirst := by
    intro i i' pValue hi
    obtain ⟨t, h, hholds⟩ := ConfigurationItem.holds_insertItemValue pValue hi 0
    exact call_rel h hholds

/-- **The parser makes objects with the contents that the tokens describe.** -/
theorem yyparse_objects (hg : g.Valid) (tokens : List Token) :
    ExceptRel Config.Holds (yyparse (objectActions g) tokens)
      (yyparse (contentActions g.gbIsCaseSensitive) tokens) :=
  yyparse_rel (objectActions_rel hg) tokens

end ConfigurationFile

end CatraLibraries
