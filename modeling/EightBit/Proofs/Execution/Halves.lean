import EightBit.Proofs.Bus.Flat
import EightBit.Proofs.Bus.Simulation
import EightBit.Proofs.Execution.Fetch
import EightBit.Proofs.Execution.Performed

/-
The undocumented instructions that change a byte and then combine it with the accumulator. Each does
the work of two documented ones, one after the other, at an address that is found once.
-/

namespace EightBit

open Transaction

/-- What an operation on its operand does once the operand is found. -/
def Operation.act (operation : Operation) (operand : Operand) (registers : Registers) :
    Transaction Registers :=
  match operation with
  | consume use => do
      let value ← operand.read registers
      return use registers value
  | modify change use => do
      let (result, registers) ← modifyOperand change operand registers
      return use registers result
  | _ => return registers

/-- By itself the operation finds an operand and then acts on it. -/
def Operation.ActsWhereFound (operation : Operation) : Prop :=
  ∀ (mode : Mode) (registers : Registers),
    Prod.fst <$> operation.perform mode registers =
      mode.locate registers >>= fun outcome => operation.act outcome.1.operand outcome.2

namespace Mnemonic

/-- The documented instructions that an undocumented one is made of. -/
def halves? : Mnemonic → Option (Mnemonic × Mnemonic)
  | slo => some (asl, ora)
  | rla => some (rol, and)
  | sre => some (lsr, eor)
  | rra => some (ror, adc)
  | dcp => some (dec, cmp)
  | isb => some (inc, sbc)
  | _ => none

end Mnemonic

/-- The modes of the instructions that are made of two. -/
def Mode.combined : List Mode :=
  [zeroPage, zeroPageX, absolute, absoluteX, absoluteY, indexedIndirect, indirectIndexed]

/-- The instruction works on the byte at an address, as the two halves do one after the other. On
the bus `start` it finds the address with registers `found`, which leaves the bus `located`. -/
structure Instruction.Halved {D : Type} [Peripheral D] (instruction : Instruction)
    (first second : Mnemonic) (registers found : Registers) (address : Address)
    (start located : Bus D) : Prop where
  mode : instruction.mode ∈ Mode.combined
  /-- The mnemonic is in the table with each of these modes. -/
  entries : ∀ mode ∈ Mode.combined, ∃ opcode,
    (ofOpcode opcode).mnemonic = instruction.mnemonic ∧ (ofOpcode opcode).mode = mode
  documented : first.operation.ActsWhereFound ∧ second.operation.ActsWhereFound
  /-- The registers are the same, and so is the memory; only watchpoints can tell that the second
  half by itself reads the byte again. -/
  composed : ∃ after spent later last,
    (instruction.execute registers).run start = .ok ((after, spent), later) ∧
      (first.operation.act (.memory address) found >>=
        second.operation.act (.memory address)).run located = .ok (after, last) ∧
      Bus.SameMemory later last ∧
      after.x = registers.x ∧ after.y = registers.y ∧ after.s = registers.s ∧
      after.pc = registers.pc + UInt16.ofNat instruction.length
  /-- The address is found once, before the byte there is read and written. -/
  once : ∃ old new, (instruction.execute registers).accesses start =
    (instruction.mode.locate { registers with pc := registers.pc.next }).accesses start ++
      [⟨.read, address, old⟩, ⟨.write, address, old⟩, ⟨.write, address, new⟩]

namespace Operation

/-- An operation that reads its operand acts where the operand was found. -/
theorem consume_acts (use : Registers → UInt8 → Registers) :
    (consume use).ActsWhereFound := by
  intro mode registers
  simp only [perform, act, map_bind, map_pure]

/-- An operation that modifies its operand acts where the operand was found. -/
theorem modify_acts (change : Modification) (use : Registers → UInt8 → Registers) :
    (modify change use).ActsWhereFound := by
  intro mode registers
  simp only [perform, act, map_bind, map_pure]

end Operation

/-- The combined operation makes the change of the first half and the use of the second. -/
theorem Mnemonic.halves_operations {mnemonic first second : Mnemonic}
    (halves : mnemonic.halves? = some (first, second)) :
    ∃ (change : Modification) (use : Registers → UInt8 → Registers),
      mnemonic.operation = .modify change use ∧
        first.operation = .modify change Registers.ignore ∧ second.operation = .consume use ∧
          ∀ registers value, ∃ a p, use registers value = { registers with a, p } := by
  cases mnemonic with
  | slo | rla | sre | rra | dcp | isb =>
      cases halves
      exact ⟨_, _, rfl, rfl, rfl, fun _ _ => ⟨_, _, rfl⟩⟩
  | _ => cases halves

/-- Combined instructions have no other modes than these. -/
theorem Instruction.ofOpcode_combined {opcode : UInt8}
    (halves : (ofOpcode opcode).mnemonic.halves? ≠ none) :
    (ofOpcode opcode).mode ∈ Mode.combined :=
  ofOpcode_forall (fun instruction =>
    instruction.mnemonic.halves? ≠ none → instruction.mode ∈ Mode.combined) (by decide) opcode
      halves

/-- Every combined mnemonic has an opcode in each of these modes. -/
theorem Mnemonic.combined_entries {mnemonic : Mnemonic} (halves : mnemonic.halves? ≠ none) :
    ∀ mode ∈ Mode.combined, ∃ opcode,
      (Instruction.ofOpcode opcode).mnemonic = mnemonic ∧
        (Instruction.ofOpcode opcode).mode = mode := by
  have every : ∀ mnemonic ∈ [slo, rla, sre, rra, dcp, isb], ∀ mode ∈ Mode.combined,
      ∃ index : Fin 256, (Instruction.ofOpcode (.ofFin index)).mnemonic = mnemonic ∧
        (Instruction.ofOpcode (.ofFin index)).mode = mode := by
    decide +kernel
  have listed : mnemonic ∈ [slo, rla, sre, rra, dcp, isb] := by
    cases mnemonic <;> first | decide | exact absurd rfl halves
  intro mode combined
  obtain ⟨index, entry⟩ := every mnemonic listed mode combined
  exact ⟨_, entry⟩

namespace Bus

open Outcome

variable {D : Type} [Peripheral D] {bus : Bus D} {address : Address}

/-- A byte in RAM is changed, and shows the result afterwards. -/
theorem Sound.modify_ram (sound : bus.Sound) (ram : bus.ownerKind? address = some .ram)
    (change : Modification) (registers : Registers) :
    ∃ value later, (Operation.modifyOperand change (.memory address) registers).run bus =
        .ok (((change registers.p value).1,
          { registers with p := (change registers.p value).2 }), later) ∧
      later.peek address = .ok (change registers.p value).1 ∧ Follows bus later := by
  obtain ⟨value, _, read⟩ := sound.read_storage ram nofun
  have first := read_follows read
  have still := (first.ownerKind? address).trans ram
  obtain ⟨middle, kept, _⟩ := (sound.follows first).write_ram still value
  have second := first.trans (write_follows kept)
  have again := (second.ownerKind? address).trans ram
  obtain ⟨later, changed, seen⟩ :=
    (sound.follows second).write_ram again (change registers.p value).1
  refine ⟨value, later, ?_, seen, second.trans (write_follows changed)⟩
  refine (run_read_eq_bind ..).trans ?_
  rw [read, bind_ok]
  refine (run_write_eq_bind ..).trans ?_
  rw [kept, bind_ok]
  refine (run_write_eq_bind ..).trans ?_
  rw [changed]
  rfl

end Bus

namespace Instruction

/-- The program counter moves past the opcode and past the operand bytes. -/
theorem pass_pc (instruction : Instruction) (registers : Registers) :
    (instruction.mode.pass { registers with pc := registers.pc.next }).pc =
      registers.pc + UInt16.ofNat instruction.length := by
  rw [length, UInt16.ofNat_add, ← UInt16.add_assoc]
  rfl

/-- An instruction that changes its operand finds it first, and then changes it. -/
theorem execute_modify {opcode : UInt8} {change : Modification}
    {use : Registers → UInt8 → Registers}
    (modifies : (ofOpcode opcode).mnemonic.operation = .modify change use)
    (registers : Registers) :
    (ofOpcode opcode).execute registers =
      (ofOpcode opcode).mode.locate { registers with pc := registers.pc.next } >>= fun outcome =>
        Operation.modifyOperand change outcome.1.operand outcome.2 >>= fun modified =>
          .done (use modified.2 modified.1, (ofOpcode opcode).cycles) := by
  rw [execute_ofOpcode, modifies]
  simp only [Operation.perform, LawfulMonad.bind_assoc, pure_bind, Nat.add_zero]
  rfl

end Instruction

namespace Operation

variable {M : Type} [Memory M] {operand : Operand} {registers changed : Registers}
  {memory later : M} {result : UInt8}

/-- A change by itself only leaves the changed operand and the flags. -/
theorem run_act_modify {change : Modification}
    (modified : (modifyOperand change operand registers).run memory =
      .ok ((result, changed), later)) :
    ((modify change Registers.ignore).act operand registers).run memory =
      .ok (changed, later) :=
  run_bind_eq_ok_iff.mpr ⟨_, _, modified, rfl⟩

/-- An operand in memory is read once and written twice. -/
theorem accesses_modified {change : Modification} {address : Address}
    (place : operand = .memory address)
    (modified : (modifyOperand change operand registers).run memory =
      .ok ((result, changed), later)) :
    ∃ old, (modifyOperand change operand registers).accesses memory =
      [⟨.read, address, old⟩, ⟨.write, address, old⟩, ⟨.write, address, result⟩] := by
  rcases modified_of_yields (yields_of_run modified) with ⟨none, _⟩ | ⟨_, old, named, uses, _⟩
  · cases place.symm.trans none
  · cases place.symm.trans named
    exact ⟨old, uses⟩

/-- Acting on an operand in memory reads it once. -/
theorem run_act_consume {use : Registers → UInt8 → Registers} {address : Address} {value : UInt8}
    (read : Memory.read memory address = .ok (value, later)) :
    ((consume use).act (.memory address) registers).run memory =
      .ok (use registers value, later) := by
  change (Transaction.read address fun value => done (use registers value)).run memory = _
  rw [run, read]
  rfl

end Operation

/-- Whatever the registers and the peripherals are, an undocumented instruction that changes a byte
in RAM does the same as its two documented halves, also where the byte is one of its own. -/
theorem combined_opcode_is_two_halves {D : Type} [Peripheral D] {bus located : Bus D}
    (sound : bus.Sound) {opcode : UInt8} {first second : Mnemonic}
    (halves : (Instruction.ofOpcode opcode).mnemonic.halves? = some (first, second))
    {registers found : Registers} {location : Location} {address : Address}
    (finds : ((Instruction.ofOpcode opcode).mode.locate
      { registers with pc := registers.pc.next }).run bus = .ok ((location, found), located))
    (place : location.operand = .memory address) (ram : bus.ownerKind? address = some .ram) :
    (Instruction.ofOpcode opcode).Halved first second registers found address bus located := by
  have combined : (Instruction.ofOpcode opcode).mnemonic.halves? ≠ none := by
    rw [halves]
    exact nofun
  obtain ⟨change, use, both, modifies, consumes, frame⟩ := Mnemonic.halves_operations halves
  -- The change is the same for the instruction and for its first half.
  have follows := Bus.run_follows finds
  have still := (follows.ownerKind? address).trans ram
  obtain ⟨value, later, modified, seen, kept⟩ :=
    (sound.follows follows).modify_ram still change found
  generalize (change found.p value).1 = result at modified seen
  generalize (change found.p value).2 = p at modified
  rw [← place] at modified
  -- The second half reads the result where the instruction has it at hand.
  obtain ⟨again, shown, read⟩ := ((sound.follows follows).follows kept).read_storage
    ((kept.ownerKind? address).trans still) nofun
  cases seen.symm.trans shown
  have executes := Instruction.execute_modify both registers
  refine ⟨Instruction.ofOpcode_combined combined, Mnemonic.combined_entries combined, ?_, ?_, ?_⟩
  · rw [modifies, consumes]
    exact ⟨Operation.modify_acts _ _, Operation.consume_acts _⟩
  · refine ⟨use { found with p } result, (Instruction.ofOpcode opcode).cycles, later,
      later.notice .read address result, ?_, ?_, ?_, ?_⟩
    · rw [executes]
      exact run_bind_eq_ok_iff.mpr ⟨_, _, finds,
        run_bind_eq_ok_iff.mpr ⟨_, _, modified, rfl⟩⟩
    · rw [modifies, consumes, ← place]
      refine run_bind_eq_ok_iff.mpr ⟨_, _, Operation.run_act_modify modified, ?_⟩
      rw [place]
      exact Operation.run_act_consume read
    · exact ⟨(Bus.notice_regions ..).symm, (Bus.notice_dispatch ..).symm⟩
    · obtain ⟨a, flags, used⟩ := frame { found with p } result
      obtain ⟨_, rfl⟩ := Mode.finds_of_yields (yields_of_run finds)
      rw [used]
      exact ⟨rfl, rfl, rfl, Instruction.pass_pc ..⟩
  · obtain ⟨old, uses⟩ := Operation.accesses_modified place modified
    refine ⟨old, result, ?_⟩
    rw [executes, accesses_bind _ _ finds, accesses_bind _ _ modified, uses]
    rfl

/-- One byte for the whole address space. -/
def oneEverywhere : Region Unpopulated := .ram "ram" .full 1

/-- The bus with that block alone. -/
def ones : Bus Unpopulated := (Bus.empty.add oneEverywhere).2

theorem ones_sound : ones.Sound := Bus.sound_empty.add (Region.filled_ram _ _ _)

theorem ones_attached : ones.regions[0]? = some oneEverywhere := by
  rw [ones, Bus.add_regions]
  rfl

/-- The block owns every address of that bus. -/
theorem ones_owner (address : Address) : ones.owner address = some 0 :=
  (Bus.owner_add ..).trans (if_pos (AddressRange.containsAddress_full address))

theorem ones_ram (address : Address) : ones.ownerKind? address = some .ram :=
  Bus.ownerKind?_attached (ones_owner address) ones_attached

/-- Every address of that bus shows a one. -/
theorem peek_ones (address : Address) : ones.peek address = .ok 1 := by
  have storage : oneEverywhere.kind ≠ .io := show RegionKind.ram ≠ .io from nofun
  have inside : (oneEverywhere.range.offsetOf address).toNat < oneEverywhere.stored.size :=
    Array.size_replicate.symm ▸ UInt16.toNat_lt _
  rw [Bus.peek_attached (ones_owner address) ones_attached, (Region.peek_storage storage _).1,
    Region.byteAt_inside inside]
  exact congrArg Except.ok (Array.getElem_replicate _)

/-- At the bottom of this memory the byte that is shifted left and combined with the accumulator is
the operand byte of the instruction. -/
theorem two_halves_on_own_operand :
    ones.Sound ∧ (Instruction.ofOpcode 0x07).mnemonic.halves? = some (.asl, .ora) ∧
      ones.ownerKind? 1 = some .ram ∧ ∃ found located,
        ((Instruction.ofOpcode 0x07).mode.locate
            { Registers.initial with pc := Registers.initial.pc.next }).run ones =
          .ok ((.direct 1, found), located) ∧
        (Instruction.ofOpcode 0x07).Halved .asl .ora Registers.initial found 1 ones located := by
  obtain ⟨value, seen, read⟩ := ones_sound.read_storage (ones_ram 1) nofun
  cases seen.symm.trans (peek_ones 1)
  have finds : ((Instruction.ofOpcode 0x07).mode.locate
      { Registers.initial with pc := Registers.initial.pc.next }).run ones =
        .ok ((.direct 1, { Registers.initial with pc := 2 }), ones.notice .read 1 1) := by
    refine (Bus.run_read_eq_bind ones 1 _).trans ?_
    rw [read]
    rfl
  exact ⟨ones_sound, rfl, ones_ram 1, _, _, finds,
    combined_opcode_is_two_halves ones_sound rfl finds rfl (ones_ram 1)⟩

end EightBit
