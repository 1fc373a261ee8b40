/-
# The load balancer

The modules of a `LoadBalancer` are checked one after the other by its thread
(`checkAllDeliveryModules`), which says of each of them whether it is available.  A client asks for
an available module of a group; the group keeps an iterator at the module after the last one that
it gave out, and moves it on over the modules that are not available.

A module is a pointer, and a group is a vector of pointers: a module that the configuration lists
twice is twice in its group.  The iterator is the position in the vector.
-/
import CatraLibraries.Lib.CString
import CatraLibraries.Lib.RoundRobin
import CatraLibraries.Lib.Transition
import Mathlib.Algebra.Order.Ring.Int
import Mathlib.Logic.Function.Basic

namespace CatraLibraries

open CString RoundRobin Transition

/-! ### Checks -/

/-- `isspace`, in the C locale. -/
def isSpaceByte (c : UInt8) : Bool := c = 32 ∨ (9 ≤ c ∧ c ≤ 13)

/-- The value of the digits at the beginning. -/
def digitsValue (s : List UInt8) : ℕ :=
  (s.takeWhile fun c => 48 ≤ c ∧ c ≤ 57).foldl (fun value c => 10 * value + (c.toNat - 48)) 0

/-- `strtoul (…, 10)`: the largest value on overflow, and a sign is applied modulo `2 ^ 64`. -/
def strtoul (s : List UInt8) : ℕ :=
  match s.dropWhile isSpaceByte with
  | 45 :: digits =>
    if digitsValue digits < 2 ^ 64 then (2 ^ 64 - digitsValue digits) % 2 ^ 64 else 2 ^ 64 - 1
  | 43 :: digits => min (digitsValue digits) (2 ^ 64 - 1)
  | digits => min (digitsValue digits) (2 ^ 64 - 1)

/-- `DeliveryModule_t`. -/
structure DeliveryModule where
  pPrivateHost : List UInt8
  ulPrivatePort : ℕ
  pPublicHost : List UInt8
  ulPublicPort : ℕ
  bURLToGetCurrentRequestsNumber : List UInt8
  ulMaxRequestsNumber : ℕ
  tLastCheckTimestamp : ℤ
  bCheckResultSuccessful : Bool
  bWasLastErrorTimeout : Bool
  deriving DecidableEq, Repr

/-- What comes of the request or of the connection with which a module is checked. -/
inductive Ping
  | httpInitFailed
  | httpRunFailed (headerTimeoutExpired : Bool)
  | httpFinishFailed
  | httpResponse (bHttpGetBodyResponse : List UInt8)
  | connectFailed (eInProgress : Bool)
  | connected (finishWorks : Bool)
  deriving DecidableEq, Repr

namespace DeliveryModule

/-- Whether the module takes more requests, by the body of its response: the number after
`Concurrent users: `, or in the line of the first `=` sign, unless that is too long. -/
def takesRequests (ulMaxRequestsNumber : ℕ) (body : List UInt8) : Bool :=
  if bytesOf "Concurrent users: " <+: body then
    strtoul (body.drop (bytesOf "Concurrent users: ").length) < ulMaxRequestsNumber
  else if bytesOf "Concurrent Users (Total)" <:+: body ∧ 61 ∈ body then
    let line := (body.dropWhile (· ≠ 61)).tail
    if 10 ∉ line ∨ 256 ≤ (line.takeWhile (· ≠ 10)).length then true
    else strtoul (line.takeWhile (· ≠ 10)) < ulMaxRequestsNumber
  else true

/-- What the check says: whether it was successful and whether it ended with a time-out. -/
def checkResult (ulMaxRequestsNumber : ℕ) : Ping → Bool × Bool
  | .httpInitFailed => (false, false)
  | .httpRunFailed headerTimeoutExpired => (false, headerTimeoutExpired)
  | .httpFinishFailed => (false, false)
  | .httpResponse body => (takesRequests ulMaxRequestsNumber (visible body), false)
  | .connectFailed eInProgress => (false, eInProgress)
  | .connected finishWorks => (finishWorks, false)

/-- The turn of a module in `checkAllDeliveryModules`.  After a time-out it is left alone for five
minutes. -/
def check (tNow : ℤ) (ping : Ping) (dm : DeliveryModule) : DeliveryModule :=
  if dm.bWasLastErrorTimeout = true ∧ tNow - dm.tLastCheckTimestamp ≤ 5 * 60 then dm
  else
    { dm with
      tLastCheckTimestamp := tNow
      bCheckResultSuccessful := (checkResult dm.ulMaxRequestsNumber ping).1
      bWasLastErrorTimeout := (checkResult dm.ulMaxRequestsNumber ping).2 }

end DeliveryModule

/-! ### Groups -/

/-- `GroupModules_t`, of a group that has modules. -/
structure GroupModules where
  pModulesName : List UInt8
  vModules : List ℕ
  nonempty : vModules ≠ []

/-- The errors of `getAvailableModule`. -/
inductive LoadBalancerError
  | activationWrong
  | modulesNameNotFound
  | bufferTooShort
  | moduleNotAvailable
  deriving DecidableEq, Repr

/-- The buffers of a call, each with its length; a pointer may be null. -/
structure HostBuffers where
  pPublicHost : Option ℕ
  pulPublicPort : Bool
  pPrivateHost : Option ℕ
  pulPrivatePort : Bool
  deriving DecidableEq, Repr

/-- What a call writes, and the position of the module it comes from. -/
structure ModuleAddress where
  position : ℕ
  pPublicHost : List UInt8
  pulPublicPort : ℕ
  pPrivateHost : Option (List UInt8)
  pulPrivatePort : Option ℕ
  deriving DecidableEq, Repr

/-- The load balancer; `calls` records what the calls for a group have returned, newest first. -/
structure LoadBalancer where
  bLoadBalancerEnabled : Bool
  deliveryModules : ℕ → DeliveryModule
  vModulesGroups : List GroupModules
  itLastModuleSelected : ℕ → ℕ
  calls : List (ℕ × Except LoadBalancerError ModuleAddress)

namespace LoadBalancer

/-- The load balancer after `init`: every iterator is at the beginning. -/
def Initial (lb : LoadBalancer) : Prop := lb.calls = [] ∧ ∀ i, lb.itLastModuleSelected i = 0

/-- The strings of the module and their NUL fit into the buffers. -/
def Fits (b : HostBuffers) (dm : DeliveryModule) : Prop :=
  (∀ n ∈ b.pPublicHost, dm.pPublicHost.length < n) ∧
    ∀ n ∈ b.pPrivateHost, dm.pPrivateHost.length < n

instance (b : HostBuffers) (dm : DeliveryModule) : Decidable (Fits b dm) :=
  inferInstanceAs (Decidable ((∀ n ∈ b.pPublicHost, _) ∧ ∀ n ∈ b.pPrivateHost, _))

/-- What is written for a module. -/
def address (b : HostBuffers) (position : ℕ) (dm : DeliveryModule) : ModuleAddress where
  position := position
  pPublicHost := dm.pPublicHost
  pulPublicPort := dm.ulPublicPort
  pPrivateHost := b.pPrivateHost.map fun _ => dm.pPrivateHost
  pulPrivatePort := if b.pulPrivatePort then some dm.ulPrivatePort else none

/-- The module at a position of a group. -/
def moduleAt (lb : LoadBalancer) (group : GroupModules) (position : ℕ) : DeliveryModule :=
  lb.deliveryModules (group.vModules.getD position 0)

/-- `_bCheckResultSuccessful` of the module at a position. -/
def Available (lb : LoadBalancer) (group : GroupModules) (position : ℕ) : Prop :=
  (lb.moduleAt group position).bCheckResultSuccessful = true

instance (lb : LoadBalancer) (group : GroupModules) (position : ℕ) :
    Decidable (lb.Available group position) := inferInstanceAs (Decidable (_ = _))

/-- The loop of `getAvailableModule`, with the rounds that are left, from the iterator `it`; the
iterator after it goes with the result. -/
def selectModule (lb : LoadBalancer) (group : GroupModules) (b : HostBuffers) :
    ℕ → ℕ → Except LoadBalancerError ModuleAddress × ℕ
  | 0, it => (.error .moduleNotAvailable, it)
  | rounds + 1, it =>
    if lb.Available group it then
      if Fits b (lb.moduleAt group it) then
        (.ok (address b it (lb.moduleAt group it)), advance group.vModules.length it)
      else (.error .bufferTooShort, it)
    else selectModule lb group b rounds (advance group.vModules.length it)

/-- The first group of the name. -/
def groupIndex (lb : LoadBalancer) (pModulesName : List UInt8) : Option ℕ :=
  lb.vModulesGroups.findIdx? (·.pModulesName = pModulesName)

/-- The load balancer and the arguments of a call are in order. -/
def Accepts (lb : LoadBalancer) (b : HostBuffers) : Prop :=
  lb.bLoadBalancerEnabled = true ∧ b.pPublicHost ≠ none ∧ b.pulPublicPort = true

instance (lb : LoadBalancer) (b : HostBuffers) : Decidable (lb.Accepts b) :=
  inferInstanceAs (Decidable (_ ∧ _ ∧ _))

/-- `getAvailableModule`. -/
def getAvailableModule (lb : LoadBalancer) (pModulesName : List UInt8) (b : HostBuffers) :
    Except LoadBalancerError ModuleAddress × LoadBalancer :=
  if ¬lb.Accepts b then (.error .activationWrong, lb)
  else
    match lb.groupIndex pModulesName with
    | none => (.error .modulesNameNotFound, lb)
    | some i =>
      match lb.vModulesGroups[i]? with
      | none => (.error .modulesNameNotFound, lb)
      | some group =>
        let (result, it) :=
          lb.selectModule group b group.vModules.length (lb.itLastModuleSelected i)
        (result, { lb with itLastModuleSelected := Function.update lb.itLastModuleSelected i it })

/-- The calls with one more, if it is in order and its group is found. -/
def record (lb : LoadBalancer) (pModulesName : List UInt8) (b : HostBuffers)
    (result : Except LoadBalancerError ModuleAddress) :
    List (ℕ × Except LoadBalancerError ModuleAddress) :=
  match lb.groupIndex pModulesName with
  | none => lb.calls
  | some i => if lb.Accepts b then (i, result) :: lb.calls else lb.calls

/-- What can happen: the turn of a module in a check, or a call. -/
inductive Action
  | check (pdmDeliveryModule : ℕ) (tNow : ℤ) (ping : Ping)
  | getAvailableModule (pModulesName : List UInt8) (b : HostBuffers)

/-- One step; the calls for one group take turns by its mutex, and what a call returns is recorded. -/
def step (lb : LoadBalancer) : Action → Option LoadBalancer
  | .check pdmDeliveryModule tNow ping =>
    some { lb with
      deliveryModules := Function.update lb.deliveryModules pdmDeliveryModule
        ((lb.deliveryModules pdmDeliveryModule).check tNow ping) }
  | .getAvailableModule pModulesName b =>
    let (result, lb') := lb.getAvailableModule pModulesName b
    some { lb' with calls := lb.record pModulesName b result }

end LoadBalancer

end CatraLibraries
