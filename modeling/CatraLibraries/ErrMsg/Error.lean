/-
# Errors

`ErrMsg/src/Error.cpp`, and the parts of `ErrMsgBase.cpp` that it calls.  An `Error` has an error of
a class of its own, which it allocated, or none.  In both cases there may be user data: up to 32
bytes in an array of the object, more of them in a block on the heap; which of the two it is, is
told from their number.

An `Error` is known by a number, which is also the owner of the blocks that it allocates.  The
constructor from an error class leaves the members for the user data without an error as the memory
happens to be.  Memory is allocated without a failure.
-/
import Mathlib.Data.Int.Notation
import CatraLibraries.Lib.OwnedBlocks

namespace CatraLibraries

namespace ErrMsg

/-- `ERRMSGBASE_PREALLOCATEDUSERDATABYTES`. -/
def preAllocatedUserDataBytes : ℕ := 32

/-- The user data on the heap, owned by the `Error` that allocated them. -/
abbrev Heap := OwnedBlocks ℕ (List UInt8)

/-- A pointer to user data: the array of the object, a block, or whatever is not `NULL`. -/
inductive Pointer
  | null
  | preAllocated
  | block (n : ℕ)
  | uninitialised
  deriving DecidableEq, Repr

/-- `delete []`. -/
def Heap.delete (h : Heap) (owner : ℕ) : Pointer → Heap
  | .null => h
  | .block n => h.free owner n
  | .preAllocated | .uninitialised => h.fault

/-! ### User data -/

/-- The members for the user data; of the array what has been written. -/
structure UserData where
  pucPreAllocatedUserData : List UInt8
  pucUserData : Pointer
  ulUserDataBytes : ℕ
  deriving DecidableEq, Repr

namespace UserData

/-- No user data. -/
def empty : UserData := ⟨[], .null, 0⟩

/-- The bytes that `getUserData` copies; there are none where they cannot be read. -/
def get (h : Heap) (u : UserData) : Option (List UInt8) :=
  if u.ulUserDataBytes = 0 then some []
  else
    match u.pucUserData with
    | .preAllocated => some (u.pucPreAllocatedUserData.take u.ulUserDataBytes)
    | .block n => (h.block n).map fun x => x.2.take u.ulUserDataBytes
    | .null | .uninitialised => none

/-- User data that were allocated by `new` are deleted. -/
def release (h : Heap) (owner : ℕ) (u : UserData) : Heap × UserData :=
  if 0 < u.ulUserDataBytes ∧ preAllocatedUserDataBytes < u.ulUserDataBytes then
    (h.delete owner u.pucUserData, { u with pucUserData := .null, ulUserDataBytes := 0 })
  else (h, u)

/-- `setUserData`: the new data are in their place when the old ones are deleted. -/
def set (h : Heap) (owner : ℕ) (u : UserData) (data : List UInt8) : Heap × UserData :=
  if data.length ≤ preAllocatedUserDataBytes then
    let (h, u) := u.release h owner
    (h,
      { pucPreAllocatedUserData := data ++ u.pucPreAllocatedUserData.drop data.length
        pucUserData := .preAllocated
        ulUserDataBytes := data.length })
  else
    let n := h.next
    let (h, u) := u.release (h.allocate owner data) owner
    (h, { u with pucUserData := .block n, ulUserDataBytes := data.length })

end UserData

/-! ### Errors of a class -/

/-- An object of an error class. -/
structure ErrMsgBase where
  className : List Char
  lErrMsgIdentifier : ℤ
  pErrMsg : Option (List Char)
  userData : UserData
  deriving DecidableEq, Repr

/-- An object of an error class outside of the `Error` objects. -/
structure CustomError where
  className : List Char
  lErrMsgIdentifier : ℤ
  pErrMsg : Option (List Char)
  userData : List UInt8
  deriving DecidableEq, Repr

/-- `duplicate`, of an object with these data. -/
def CustomError.duplicate (h : Heap) (owner : ℕ) (e : CustomError) : Heap × ErrMsgBase :=
  let new := ⟨e.className, e.lErrMsgIdentifier, e.pErrMsg, .empty⟩
  if e.userData = [] then (h, new)
  else
    let (h, userData) := new.userData.set h owner e.userData
    (h, { new with userData := userData })

/-- `duplicate`. -/
def ErrMsgBase.duplicate (h : Heap) (owner : ℕ) (e : ErrMsgBase) : Heap × ErrMsgBase :=
  match e.userData.get h with
  | some data =>
    CustomError.duplicate h owner ⟨e.className, e.lErrMsgIdentifier, e.pErrMsg, data⟩
  | none => (OwnedBlocks.fault h, { e with userData := .empty })

/-! ### Errors -/

/-- The class `Error`; `noErrorUserData` are its members for the user data without an error. -/
structure Error where
  pebCustomError : Option ErrMsgBase
  noErrorUserData : UserData
  deriving DecidableEq, Repr

namespace Error

/-- The constructor without arguments. -/
def default : Error := ⟨none, .empty⟩

/-- The constructor from an object of an error class, where the memory of the new object has `bytes`
in the place of the number of user data, and a pointer that is `NULL` or not. -/
def ofCustomError (h : Heap) (owner : ℕ) (null : Bool) (bytes : ℕ) (e : CustomError) :
    Heap × Error :=
  let (h, pebCustomError) := e.duplicate h owner
  (h, ⟨some pebCustomError, ⟨[], if null then .null else .uninitialised, bytes⟩⟩)

/-- The destructor, which is also the first part of `operator =`. -/
def delete (h : Heap) (owner : ℕ) (e : Error) : Heap × Error :=
  match e.pebCustomError with
  | some pebCustomError =>
    ((pebCustomError.userData.release h owner).1, { e with pebCustomError := none })
  | none =>
    let (h, noErrorUserData) := e.noErrorUserData.release h owner
    (h, { e with noErrorUserData := noErrorUserData })

/-- The second part of `operator =`: an `Error` without an error of a class takes what `err` has. -/
def take (h : Heap) (owner : ℕ) (e err : Error) : Heap × Error :=
  match err.pebCustomError with
  | none =>
    if err.noErrorUserData.ulUserDataBytes ≠ 0 ∧ err.noErrorUserData.pucUserData ≠ .null then
      match err.noErrorUserData.get h with
      | some data =>
        let (h, noErrorUserData) := e.noErrorUserData.set h owner data
        (h, ⟨none, noErrorUserData⟩)
      | none => (OwnedBlocks.fault h, ⟨none, e.noErrorUserData⟩)
    else (h, ⟨none, { e.noErrorUserData with pucUserData := .null, ulUserDataBytes := 0 }⟩)
  | some pebCustomError =>
    let (h, pebCustomError) := pebCustomError.duplicate h owner
    (h, { e with pebCustomError := some pebCustomError })

/-- `setUserData`. -/
def setUserData (h : Heap) (owner : ℕ) (data : List UInt8) (e : Error) : Heap × Error :=
  match e.pebCustomError with
  | none =>
    let (h, noErrorUserData) := e.noErrorUserData.set h owner data
    (h, { e with noErrorUserData := noErrorUserData })
  | some pebCustomError =>
    let (h, userData) := pebCustomError.userData.set h owner data
    (h, { e with pebCustomError := some { pebCustomError with userData := userData } })

end Error

/-! ### What an error shows -/

/-- What a caller sees of an `Error`: whether it is `errNoError`, its identifier, its text, the name
of its class and its user data. -/
structure Shown where
  isNoError : Bool
  identifier : ℤ
  message : List Char
  className : List Char
  userData : List UInt8
  deriving DecidableEq, Repr

/-- An `Error` without an error of a class. -/
def Shown.noError (userData : List UInt8) : Shown where
  isNoError := true
  identifier := -1
  message := ['N', 'o', 'E', 'r', 'r', 'M', 's', 'g']
  className := ['N', 'o', 'E', 'r', 'r', 'M', 's', 'g']
  userData := userData

/-- `pErrorInErrorLibrary`. -/
def pErrorInErrorLibrary : List Char := "Error in ErrMsg library".toList

/-- An `Error` with an error of a class. -/
def CustomError.shown (e : CustomError) : Shown where
  isNoError := false
  identifier := e.lErrMsgIdentifier
  message := e.pErrMsg.getD pErrorInErrorLibrary
  className := e.className
  userData := e.userData

/-- `operator ==` with `errNoError`, `operator long`, `operator const char *`, `getClassName` and
`getUserData`. -/
def Error.shown (h : Heap) (e : Error) : Option Shown :=
  match e.pebCustomError with
  | none => (e.noErrorUserData.get h).map .noError
  | some c => (c.userData.get h).map fun data =>
    (CustomError.mk c.className c.lErrMsgIdentifier c.pErrMsg data).shown

/-! ### The objects of a program -/

/-- The `Error` objects of a program, and the values that were last given to them. -/
structure Errors where
  heap : Heap
  objects : ℕ → Option Error
  values : ℕ → Option Shown

namespace Errors

/-- There are no objects. -/
def initial : Errors := ⟨OwnedBlocks.empty, fun _ => none, fun _ => none⟩

/-- What a program does with `Error` objects. -/
inductive Action
  | default (x : ℕ)
  | ofCustomError (x : ℕ) (null : Bool) (bytes : ℕ) (e : CustomError)
  | copy (x y : ℕ)
  | assign (x y : ℕ)
  /-- a pointer that is `NULL` is `none` -/
  | setUserData (x : ℕ) (data : Option (List UInt8))
  | destroy (x : ℕ)
  deriving DecidableEq, Repr

/-- The object `x` is changed. -/
def put (s : Errors) (x : ℕ) (r : Heap × Error) (value : Option Shown) : Errors where
  heap := r.1
  objects := Function.update s.objects x (some r.2)
  values := Function.update s.values x value

/-- `operator =`: the first part of it is over when the parameter, which may be the object itself, is
looked at. -/
def assign (s : Errors) (x y : ℕ) : Option Errors := do
  let e ← s.objects x
  let deleted := e.delete s.heap x
  let err ← Function.update s.objects x (some deleted.2) y
  return s.put x (deleted.2.take deleted.1 x err) (s.values y)

/-- One step. -/
def step (s : Errors) : Action → Option Errors
  | .default x =>
    match s.objects x with
    | none => some (s.put x (s.heap, .default) (some (.noError [])))
    | some _ => none
  | .ofCustomError x null bytes e =>
    match s.objects x with
    | none => some (s.put x (Error.ofCustomError s.heap x null bytes e) (some e.shown))
    | some _ => none
  | .copy x y =>
    match s.objects x, s.objects y with
    | none, some _ => (s.put x (s.heap, .default) (some (.noError []))).assign x y
    | _, _ => none
  | .assign x y => s.assign x y
  | .setUserData x none => (s.objects x).map fun _ => s
  | .setUserData x (some data) =>
    (s.objects x).map fun e =>
      s.put x (e.setUserData s.heap x data)
        ((s.values x).map fun value => { value with userData := data })
  | .destroy x =>
    (s.objects x).map fun e =>
      { heap := (e.delete s.heap x).1
        objects := Function.update s.objects x none
        values := Function.update s.values x none }

end Errors

end ErrMsg

end CatraLibraries
