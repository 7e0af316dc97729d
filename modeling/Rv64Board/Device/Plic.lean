import Rv64Board.Device.Exchange
import Rv64Board.Trap

/-!
# The platform-level interrupt controller

Collects the sources of devices, and offers the most urgent one to each of two contexts: machine
level and supervisor level. Source 0 does not exist.

* `Plic.best? p c`: the source that context `c` would claim now.
* `Plic.claim`, `Plic.complete`: a source stays out of the pending set from its claim to its
  completion.
* `Plic.route`: takes in the levels of the sources and drives the external interrupts.
-/

namespace Rv64Board

/-- What one context of the controller is set up for. -/
structure PlicContext where
  enable : UInt64
  threshold : UInt64
  deriving DecidableEq, Inhabited

/-- The interrupt controller. -/
structure Plic where
  priority : Vector UInt64 64
  pending : UInt64
  inService : UInt64
  contexts : Vector PlicContext 2
  deriving DecidableEq

namespace Plic

/-- The state at reset: nothing is enabled. -/
def new : Plic :=
  ⟨Vector.replicate 64 0, 0, 0, Vector.replicate 2 ⟨0, 0⟩⟩

instance : Inhabited Plic := ⟨new⟩

/-- The sources, in increasing order. -/
def sources : List (Fin 64) :=
  (List.finRange 64).drop 1

/-- The bit of a source. -/
def bitOf (id : Fin 64) : UInt64 :=
  1 <<< UInt64.ofNat id.val

/-- A source that is pending, enabled for a context and more urgent than its threshold. -/
def eligible (p : Plic) (c : Fin 2) (id : Fin 64) : Bool :=
  p.pending &&& p.contexts[c].enable &&& bitOf id != 0 && p.contexts[c].threshold < p.priority[id]

/-- Keeps the more urgent of two sources, the first one on ties. -/
def moreUrgent (p : Plic) : Option (Fin 64) → Fin 64 → Option (Fin 64)
  | none, id => some id
  | some best, id => if p.priority[best] < p.priority[id] then some id else some best

/-- The source that a context would claim: the most urgent eligible one, and the lowest of several
that are equally urgent. -/
def best? (p : Plic) (c : Fin 2) : Option (Fin 64) :=
  (sources.filter (p.eligible c)).foldl p.moreUrgent none

/-- Hands the best source to a context; zero if there is none. -/
def claim (p : Plic) (c : Fin 2) : UInt64 × Plic :=
  match p.best? c with
  | none => (0, p)
  | some id =>
    (UInt64.ofNat id.val,
      { p with pending := p.pending &&& ~~~bitOf id, inService := p.inService ||| bitOf id })

/-- Takes a source back from software. -/
def complete (p : Plic) (id : UInt32) : Effect Plic :=
  if h : 1 ≤ id.toNat ∧ id.toNat < 64 then
    ⟨{ p with inService := p.inService &&& ~~~bitOf ⟨id.toNat, h.2⟩ }, none⟩
  else ⟨p, some (.invalidCompletion id)⟩

/-- The registers by offset. -/
inductive Location
  | priority (id : Fin 64)
  | pending (distance : UInt64)
  | enable (c : Fin 2) (distance : UInt64)
  | unusedEnable
  | threshold (c : Fin 2)
  | claim (c : Fin 2)
  | unknown

/-- The enable register that a distance from the first one falls into. -/
def locateEnable (distance : UInt64) : Location :=
  if h : (distance / 0x80).toNat < 2 then
    if distance % 0x80 < 8 then .enable ⟨(distance / 0x80).toNat, h⟩ (distance % 0x80)
    else .unusedEnable
  else .unusedEnable

/-- The register of a context that a distance from the first one falls into. -/
def locateContext (distance : UInt64) : Location :=
  if h : (distance / 0x1000).toNat < 2 then
    if distance % 0x1000 = 0 then .threshold ⟨(distance / 0x1000).toNat, h⟩
    else if distance % 0x1000 = 4 then .claim ⟨(distance / 0x1000).toNat, h⟩
    else .unknown
  else .unknown

/-- The register that an offset falls into. -/
def locate (offset : UInt64) : Location :=
  if h : (offset / 4).toNat < 64 then .priority ⟨(offset / 4).toNat, h⟩
  else if 0x1000 ≤ offset ∧ offset ≤ 0x1007 then .pending (offset - 0x1000)
  else if 0x2000 ≤ offset ∧ offset ≤ 0x20FF then locateEnable (offset - 0x2000)
  else if 0x200000 ≤ offset then locateContext (offset - 0x200000)
  else .unknown

def read (p : Plic) (offset : UInt64) (w : Width) : Reply Plic :=
  match locate offset with
  | .priority id => ⟨p.priority[id], p, none⟩
  | .pending distance => ⟨readPart p.pending distance w, p, none⟩
  | .enable c distance => ⟨readPart p.contexts[c].enable distance w, p, none⟩
  | .unusedEnable => ⟨0, p, none⟩
  | .threshold c => ⟨p.contexts[c].threshold, p, none⟩
  | .claim c =>
    let (id, p) := p.claim c
    ⟨id, p, none⟩
  | .unknown => ⟨0, p, some (.unknownRead .plic offset)⟩

/-- Replaces what a context is set up for. -/
def setContext (p : Plic) (c : Fin 2) (context : PlicContext) : Plic :=
  { p with contexts := p.contexts.set c.val context c.isLt }

def write (p : Plic) (offset : UInt64) (w : Width) (value : UInt64) : Effect Plic :=
  match locate offset with
  | .priority id =>
    if id = 0 then ⟨p, none⟩
    else ⟨{ p with priority := p.priority.set id.val (value &&& 7) id.isLt }, none⟩
  | .pending _ | .unusedEnable => ⟨p, none⟩
  | .enable c distance =>
    let enable := writePart p.contexts[c].enable distance w value &&& ~~~1
    ⟨p.setContext c { p.contexts[c] with enable := enable }, none⟩
  | .threshold c => ⟨p.setContext c { p.contexts[c] with threshold := value &&& 7 }, none⟩
  | .claim _ => p.complete value.toUInt32
  | .unknown => ⟨p, some (.unknownWrite .plic offset value)⟩

/-- The external interrupts that the contexts drive. -/
def driven (p : Plic) : UInt64 :=
  (if (p.best? 0).isSome then Interrupt.machineExternal.mask else 0) |||
    (if (p.best? 1).isSome then Interrupt.supervisorExternal.mask else 0)

/-- Takes in the sources that are up and not in service, and drives the external interrupts. -/
def route (p : Plic) (lines : Lines) : Plic × Lines :=
  let p := { p with pending := p.pending ||| (lines.sources &&& ~~~p.inService &&& ~~~1) }
  (p, { lines with mip := lines.mip ||| p.driven })

end Plic

end Rv64Board
