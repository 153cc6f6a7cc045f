import EightBit.Proofs.Bus.Layers
import EightBit.Proofs.Bus.Stack

/-
Subroutines that call each other. Up to 128 calls may be under way at once, since each one saves two
bytes and the stack has a page; every return goes on after the call that it belongs to, wherever the
stack pointer stood, and whatever wraps on the way.
-/

namespace EightBit

open Transaction

namespace Address

/-- One step back from the next address is the address. -/
theorem retreat_next (address : Address) : address.next.retreat 1 = address := by
  change address + 1 - 1 = address
  grind

/-- Three next addresses are three addresses on. -/
theorem next_next_next (address : Address) : address.next.next.next = address + 3 := by
  change address + 1 + 1 + 1 = address + 3
  grind

end Address

namespace Processor

variable {M : Type} [Memory M]

/-- A number of steps, one after the other, that all succeed. -/
inductive Steps (processor : Processor) (memory : M) : Nat → Processor → M → Prop
  | none : Steps processor memory 0 processor memory
  | next {count cycles : Nat} {reached after : Processor} {middle later : M}
      (earlier : Steps processor memory count reached middle)
      (served : reached.step.run middle = .ok ((.ok cycles, after), later)) :
      Steps processor memory (count + 1) after later

/-- Steps on the flat memory that a bus shows are steps on the bus. -/
theorem Steps.of_flat {D : Type} [Peripheral D] {bus : Bus D} (stocked : bus.Stocked)
    {processor after : Processor} {memory : FlatMemory} {count : Nat}
    (steps : Steps processor bus.flatten count after memory) :
    ∃ later, Steps processor bus count after later ∧ later.Stocked ∧ later.flatten = memory := by
  induction steps with
  | none => exact ⟨bus, .none, stocked, rfl⟩
  | next _ served ih =>
      obtain ⟨middle, earlier, still, rfl⟩ := ih
      obtain ⟨later, ours, view, kept⟩ := still.run_of_flat served
      exact ⟨later, .next earlier ours, still.follows kept.follows, view⟩

/-- The processor after six cycles that brought it to an address and moved its stack pointer. -/
def resumed (processor : Processor) (pc : Address) (s : StackPointer) : Processor :=
  { processor with registers := { processor.registers with pc, s } }.spend 6

variable {processor : Processor} {memory : FlatMemory} {low high : UInt8}

/-- A call pushes the address of its last byte and goes to its target. -/
theorem step_call (idle : processor.pending = .none)
    (opcode : memory.get processor.registers.pc = 0x20)
    (first : memory.get processor.registers.pc.next = low)
    (second : memory.get processor.registers.pc.next.next = high) :
    processor.step.run memory =
      .ok ((.ok 6, processor.resumed (.ofBytes low high) (processor.registers.s - 2)),
        memory.push processor.registers.s
          [processor.registers.pc.next.next.hi, processor.registers.pc.next.next.lo]) := by
  obtain ⟨registers, cycles, pending⟩ := processor
  cases idle
  dsimp only at opcode first second ⊢
  have under : registers.s - 2 = registers.s - 1 - 1 := by grind
  rw [step_fetch, FlatMemory.run_read, opcode]
  refine (FlatMemory.run_read memory registers.pc.next _).trans ?_
  rw [first]
  refine (FlatMemory.run_read memory registers.pc.next.next _).trans ?_
  rw [second]
  conv =>
    rhs
    rw [under, ← Address.retreat_next registers.pc.next.next]
  rfl

/-- A return goes on behind the address that it pulls. -/
theorem step_return (idle : processor.pending = .none)
    (opcode : memory.get processor.registers.pc = 0x60)
    (holds : memory.Holds processor.registers.s [low, high]) :
    processor.step.run memory =
      .ok ((.ok 6, processor.resumed (Address.ofBytes low high).next
        (processor.registers.s + 2)), memory) := by
  obtain ⟨registers, cycles, pending⟩ := processor
  cases idle
  dsimp only at opcode holds ⊢
  obtain ⟨first, second, _⟩ := holds
  have above : registers.s + 2 = registers.s + 1 + 1 := by grind
  rw [step_fetch, FlatMemory.run_read, opcode]
  refine (FlatMemory.run_read memory (StackPointer.address (registers.s + 1)) _).trans ?_
  rw [first]
  refine (FlatMemory.run_read memory (StackPointer.address (registers.s + 1 + 1)) _).trans ?_
  rw [second, above]
  rfl

end Processor

/-- The code of a chain of calls. Each call leads to the site of the next one, at the last site is a
return, and one follows on each call but the first. -/
inductive CallChain.Code (depth : Nat) (site : Nat → Address) : Address → UInt8 → Prop
  | call {index : Nat} (within : index < depth) : Code depth site (site index) 0x20
  | low {index : Nat} (within : index < depth) :
      Code depth site (site index).next (site (index + 1)).lo
  | high {index : Nat} (within : index < depth) :
      Code depth site (site index).next.next (site (index + 1)).hi
  | deepest : Code depth site (site depth) 0x60
  | resumed {index : Nat} (inner : 0 < index) (within : index < depth) :
      Code depth site (site index + 3) 0x60

/-- The bus shows the code of the chain, and none of it in the page of the stack. -/
structure CallChain {D : Type} [Peripheral D] (bus : Bus D) (depth : Nat) (site : Nat → Address) :
    Prop where
  shown : ∀ {address : Address} {byte : UInt8}, CallChain.Code depth site address byte →
    bus.peek address = .ok byte
  offStack : ∀ {address : Address} {byte : UInt8}, CallChain.Code depth site address byte →
    address.hi ≠ 1

namespace CallChain

/-- What the first calls of a chain have saved, the last one on top: each one the address of its
last byte. -/
def saved (site : Nat → Address) : Nat → List UInt8
  | 0 => []
  | count + 1 => (site count).next.next.lo :: (site count).next.next.hi :: saved site count

/-- Every call saves two bytes. -/
theorem length_saved (site : Nat → Address) (count : Nat) :
    (saved site count).length = 2 * count := by
  induction count with
  | zero => rfl
  | succ count ih =>
      rw [saved, List.length_cons, List.length_cons, ih]
      omega

/-- So many calls of the chain are under way. The stack holds what they have saved, and of the
registers they have changed two. -/
structure UnderWay (depth : Nat) (site : Nat → Address) (start : Registers) (count : Nat)
    (pc : Address) (processor : Processor) (memory : FlatMemory) : Prop where
  registers : processor.registers = { start with pc, s := start.s - UInt8.ofNat (2 * count) }
  idle : processor.pending = .none
  holds : memory.Holds (start.s - UInt8.ofNat (2 * count)) (saved site count)
  writable : memory.Writable
  code : ∀ {address : Address} {byte : UInt8}, Code depth site address byte →
    memory.get address = byte ∧ address.hi ≠ 1

variable {depth count : Nat} {site : Nat → Address} {start : Registers} {processor : Processor}
  {memory : FlatMemory}

/-- The next call is made. -/
theorem UnderWay.called (state : UnderWay depth site start count (site count) processor memory)
    (within : count < depth) (shallow : depth ≤ 128) :
    ∃ after later, processor.step.run memory = .ok ((.ok 6, after), later) ∧
      UnderWay depth site start (count + 1) (site (count + 1)) after later := by
  have pc : processor.registers.pc = site count := by rw [state.registers]
  have s : processor.registers.s = start.s - UInt8.ofNat (2 * count) := by rw [state.registers]
  have lower : start.s - UInt8.ofNat (2 * (count + 1)) = start.s - UInt8.ofNat (2 * count) - 2 := by
    rw [Nat.mul_add, UInt8.ofNat_add]
    grind
  have called := Processor.step_call state.idle (pc ▸ (state.code (.call within)).1)
    (pc ▸ (state.code (.low within)).1) (pc ▸ (state.code (.high within)).1)
  rw [Address.ofBytes_lo_hi, s, pc] at called
  refine ⟨_, _, called, ?_, state.idle, ?_, state.writable.push _ _, fun part => ?_⟩
  · rw [lower, Processor.resumed, state.registers]
    rfl
  · rw [lower]
    exact state.holds.push state.writable (by rw [length_saved]; change 2 * count + 2 ≤ 256; omega)
  · obtain ⟨shown, offStack⟩ := state.code part
    exact ⟨(FlatMemory.get_push offStack ..).trans shown, offStack⟩

/-- The last call returns to the address after it. -/
theorem UnderWay.returned {pc : Address}
    (state : UnderWay depth site start (count + 1) pc processor memory)
    (opcode : memory.get pc = 0x60) :
    ∃ after, processor.step.run memory = .ok ((.ok 6, after), memory) ∧
      UnderWay depth site start count (site count + 3) after memory := by
  have here : processor.registers.pc = pc := by rw [state.registers]
  have s : processor.registers.s = start.s - UInt8.ofNat (2 * (count + 1)) := by
    rw [state.registers]
  have upper : start.s - UInt8.ofNat (2 * (count + 1)) + 2 = start.s - UInt8.ofNat (2 * count) := by
    rw [Nat.mul_add, UInt8.ofNat_add]
    grind
  obtain ⟨first, second, older⟩ := state.holds
  have top : memory.Holds processor.registers.s
      [(site count).next.next.lo, (site count).next.next.hi] := by
    rw [s]
    exact ⟨first, second, trivial⟩
  have returned := Processor.step_return state.idle (here ▸ opcode) top
  rw [Address.ofBytes_lo_hi, Address.next_next_next, s, upper] at returned
  refine ⟨_, returned, ?_, state.idle, ?_, state.writable, state.code⟩
  · rw [Processor.resumed, state.registers]
    rfl
  · have above : start.s - UInt8.ofNat (2 * (count + 1)) + 1 + 1 =
        start.s - UInt8.ofNat (2 * count) := by
      rw [← upper]
      grind
    rwa [above] at older

/-- Call by call the chain is entered. -/
theorem UnderWay.descend (state : UnderWay depth site start 0 (site 0) processor memory)
    (shallow : depth ≤ 128) (within : count ≤ depth) :
    ∃ reached later, Processor.Steps processor memory count reached later ∧
      UnderWay depth site start count (site count) reached later := by
  induction count with
  | zero => exact ⟨processor, memory, .none, state⟩
  | succ count ih =>
      obtain ⟨reached, middle, earlier, underWay⟩ := ih (by omega)
      obtain ⟨after, later, served, more⟩ := underWay.called within shallow
      exact ⟨after, later, .next earlier served, more⟩

/-- Return by return it is left again. -/
theorem UnderWay.ascend (state : UnderWay depth site start 0 (site 0) processor memory)
    (shallow : depth ≤ 128) {returns : Nat} (total : count + (returns + 1) = depth) :
    ∃ after later, Processor.Steps processor memory (depth + (returns + 1)) after later ∧
      UnderWay depth site start count (site count + 3) after later := by
  -- By the number of returns: the innermost call comes first, and each return leaves one call less
  -- under way, with the older ones still on the stack.
  induction returns generalizing count with
  | zero =>
      subst total
      obtain ⟨reached, middle, earlier, underWay⟩ := state.descend shallow (Nat.le_refl _)
      obtain ⟨after, served, fewer⟩ := underWay.returned (underWay.code .deepest).1
      exact ⟨after, middle, .next earlier served, fewer⟩
  | succ returns ih =>
      have fewer : count + 1 + (returns + 1) = depth := by omega
      obtain ⟨reached, middle, earlier, underWay⟩ := ih fewer
      have opcode := (underWay.code (.resumed (Nat.succ_pos count) (by omega))).1
      obtain ⟨after, served, outer⟩ := underWay.returned opcode
      exact ⟨after, middle, .next earlier served, outer⟩

end CallChain

/-- Wherever the stack pointer stands, a chain of up to 128 calls is entered and left again, and the
first of its calls comes to an end with nothing changed but the program counter. On the way each
return leads to the address after its own call. -/
theorem nested_calls_return {D : Type} [Peripheral D] {bus : Bus D} (stocked : bus.Stocked)
    (stack : ∀ address : Address, address.hi = 1 → bus.ownerKind? address = some .ram)
    {processor : Processor} (idle : processor.pending = .none) {depth : Nat} (some : 1 ≤ depth)
    (shallow : depth ≤ 128) {site : Nat → Address} (chain : CallChain bus depth site)
    (start : processor.registers.pc = site 0) :
    (∃ after later, processor.Steps bus (2 * depth) after later ∧
      after.registers = { processor.registers with pc := site 0 + 3 }) ∧
    ∀ returns, 1 ≤ returns → returns ≤ depth →
      ∃ after later, processor.Steps bus (depth + returns) after later ∧
        after.registers = { processor.registers with
          pc := site (depth - returns) + 3
          s := processor.registers.s - UInt8.ofNat (2 * (depth - returns)) } := by
  have still : processor.registers.s - UInt8.ofNat (2 * 0) = processor.registers.s := by grind
  have entered : CallChain.UnderWay depth site processor.registers 0 (site 0) processor
      bus.flatten := by
    refine ⟨?_, idle, trivial, Bus.writable_flatten stack, fun part => ?_⟩
    · rw [still, ← start]
    · exact ⟨Bus.get_flatten (chain.shown part), chain.offStack part⟩
  have back : ∀ returns, 1 ≤ returns → returns ≤ depth →
      ∃ after later, processor.Steps bus (depth + returns) after later ∧
        after.registers = { processor.registers with
          pc := site (depth - returns) + 3
          s := processor.registers.s - UInt8.ofNat (2 * (depth - returns)) } := by
    intro returns first within
    obtain ⟨returns, rfl⟩ := Nat.exists_eq_add_of_le' first
    obtain ⟨after, memory, steps, underWay⟩ := entered.ascend shallow
      (show depth - (returns + 1) + (returns + 1) = depth by omega)
    obtain ⟨later, ours, _⟩ := steps.of_flat stocked
    exact ⟨after, later, ours, underWay.registers⟩
  refine ⟨?_, back⟩
  obtain ⟨after, later, steps, registers⟩ := back depth some (Nat.le_refl _)
  rw [Nat.sub_self, still] at registers
  exact ⟨after, later, Nat.two_mul depth ▸ steps, registers⟩

/-- Returns everywhere, but for calls in the last page and in three bytes at `$6020`. -/
def twoCalls : Bus Unpopulated :=
  ((Bus.uniform 0x60).add (.rom "last" (.page 0xff) 0x20)).2.add
    (.rom "inner" ⟨0x6020, 3, by decide⟩ 0x20) |>.2

/-- The first call has its target in the byte at the bottom of memory, and its target is the second
call. -/
def twoCallSites : Nat → Address
  | 0 => 0xfffe
  | 1 => 0x6020
  | _ => 0x2020

theorem lastPage_stocked :
    ((Bus.uniform 0x60 : Bus Unpopulated).add (.rom "last" (.page 0xff) 0x20)).2.Stocked :=
  (Bus.uniform_stocked 0x60).add (Bus.isBlock_rom ..)

theorem twoCalls_stocked : twoCalls.Stocked := lastPage_stocked.add (Bus.isBlock_rom ..)

/-- The bytes of that memory are calls in two places and returns elsewhere. -/
theorem peek_twoCalls (address : Address) :
    twoCalls.peek address = .ok
      (if AddressRange.containsAddress ⟨0x6020, 3, by decide⟩ address then 0x20
      else if (AddressRange.page 0xff).containsAddress address then 0x20 else 0x60) := by
  rw [twoCalls_stocked.peek, twoCalls, lastPage_stocked.get_add (Bus.isBlock_rom ..),
    (Bus.uniform_stocked 0x60).get_add (Bus.isBlock_rom ..), Bus.get_uniform]
  rfl

/-- The stack of that memory can be written. -/
theorem twoCalls_stack {address : Address} (page : address.hi = 1) :
    twoCalls.ownerKind? address = some .ram := by
  have number := address.toNat_hi
  rw [page] at number
  change 1 = _ at number
  have inner : ¬AddressRange.containsAddress ⟨0x6020, 3, by decide⟩ address := by
    rw [AddressRange.containsAddress_iff]
    change ¬(0x6020 ≤ _ ∧ _)
    omega
  have last : ¬(AddressRange.page 0xff).containsAddress address := by
    rw [AddressRange.containsAddress_page, page]
    decide
  rw [twoCalls,
    Bus.ownerKind?_outside lastPage_stocked.sound (.rom "inner" ⟨0x6020, 3, by decide⟩ 0x20) inner,
    Bus.ownerKind?_outside (Bus.uniform_stocked 0x60).sound (.rom "last" (.page 0xff) 0x20) last,
    Bus.uniform_ram]

/-- The two places are a chain of calls. -/
theorem twoCalls_chain : CallChain twoCalls 2 twoCallSites := by
  have every : ∀ {address : Address} {byte : UInt8}, CallChain.Code 2 twoCallSites address byte →
      twoCalls.peek address = .ok byte ∧ address.hi ≠ 1 := by
    intro address byte part
    rw [peek_twoCalls, Except.ok.injEq]
    cases part with
    | @call index within =>
        obtain rfl | rfl : index = 0 ∨ index = 1 := by omega
        · decide
        · decide
    | @low index within =>
        obtain rfl | rfl : index = 0 ∨ index = 1 := by omega
        · decide
        · decide
    | @high index within =>
        obtain rfl | rfl : index = 0 ∨ index = 1 := by omega
        · decide
        · decide
    | deepest => decide
    | @resumed index inner within =>
        obtain rfl : index = 1 := by omega
        decide
  exact ⟨fun part => (every part).1, fun part => (every part).2⟩

/-- A processor in front of the last two bytes of memory, with the stack pointer at the bottom of
its page. -/
def atTop : Processor := ⟨{ Registers.initial with pc := 0xfffe, s := 0 }, 0, .none⟩

/-- Two calls return, although the program counter and the stack pointer wrap on the way. -/
theorem nested_calls_return_around_edges :
    ∃ after later, atTop.Steps twoCalls 4 after later ∧
      after.registers = { Registers.initial with pc := 1, s := 0 } := by
  have idle : atTop.pending = .none := rfl
  have start : atTop.registers.pc = twoCallSites 0 := rfl
  exact (nested_calls_return twoCalls_stocked (fun _ => twoCalls_stack) idle (by decide) (by decide)
    twoCalls_chain start).1

end EightBit
