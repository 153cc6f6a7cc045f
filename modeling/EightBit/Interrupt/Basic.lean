import EightBit.Register.Status

/-
The kinds of interrupt and the latch of requests that wait to be served.
-/

namespace EightBit

inductive Interrupt where
  | reset
  | nmi
  | irq
  /-- A request from software, entered the way the `BRK` instruction is. -/
  | break_
  deriving DecidableEq, Repr

namespace Interrupt

/-- The highest priority comes first. -/
def priority : List Interrupt := [reset, nmi, break_, irq]

/-- Every kind takes seven cycles to enter. -/
def cycles : Nat := 7

def vector : Interrupt → UInt16
  | nmi => 0xfffa
  | reset => 0xfffc
  | irq => 0xfffe
  | break_ => 0xfffe

/-- A handler tells software requests from hardware ones by the pushed break mark. -/
def pushesBreakMark (interrupt : Interrupt) : Bool := interrupt == break_

/-- Only the ordinary request obeys the interrupt disable flag. -/
def isMaskable (interrupt : Interrupt) : Bool := interrupt == irq

def name : Interrupt → String
  | reset => "Reset"
  | nmi => "Nmi"
  | irq => "Irq"
  | break_ => "Break"

def ofName? (name : String) : Option Interrupt :=
  priority.find? fun interrupt => interrupt.name == name

end Interrupt

/-- Requests of one kind coalesce, so the latch holds one bit for each kind. -/
structure Pending where
  reset : Bool
  nmi : Bool
  irq : Bool
  break_ : Bool
  deriving DecidableEq, Repr

namespace Pending

def none : Pending := ⟨false, false, false, false⟩

/-- The four low bits of the byte; the others are dropped. -/
def ofByte (byte : UInt8) : Pending where
  reset := byte.toNat.testBit 0
  nmi := byte.toNat.testBit 1
  irq := byte.toNat.testBit 2
  break_ := byte.toNat.testBit 3

def toByte (pending : Pending) : UInt8 :=
  UInt8.ofNat (pending.reset.toNat + 2 * pending.nmi.toNat + 4 * pending.irq.toNat +
    8 * pending.break_.toNat)

def contains (pending : Pending) : Interrupt → Bool
  | .reset => pending.reset
  | .nmi => pending.nmi
  | .irq => pending.irq
  | .break_ => pending.break_

def put (pending : Pending) (interrupt : Interrupt) (on : Bool) : Pending :=
  match interrupt with
  | .reset => { pending with reset := on }
  | .nmi => { pending with nmi := on }
  | .irq => { pending with irq := on }
  | .break_ => { pending with break_ := on }

def raise (pending : Pending) (interrupt : Interrupt) : Pending := pending.put interrupt true

def clear (pending : Pending) (interrupt : Interrupt) : Pending := pending.put interrupt false

def toList (pending : Pending) : List Interrupt :=
  Interrupt.priority.filter pending.contains

def isEmpty (pending : Pending) : Bool := pending.toList.isEmpty

/-- The request taken next under a status. A masked request stays in the latch. -/
def next? (pending : Pending) (status : Status) : Option Interrupt :=
  pending.toList.find? fun interrupt => !(status.interruptDisable && interrupt.isMaskable)

/-- The latch after a request was taken: a reset drops everything that waits. -/
def afterTaking (pending : Pending) (interrupt : Interrupt) : Pending :=
  if interrupt = .reset then none else pending.clear interrupt

@[simp] theorem ofByte_toByte (pending : Pending) : ofByte pending.toByte = pending := by
  obtain ⟨r, n, i, b⟩ := pending
  cases r <;> cases n <;> cases i <;> cases b <;> decide

end Pending

end EightBit
