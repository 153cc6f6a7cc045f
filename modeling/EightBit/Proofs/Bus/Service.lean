import EightBit.Proofs.Bus.Copy

/-
Accesses are served. On a sound bus an access either meets an address that nobody owns, or it
reaches its owner at an offset below the size of that region; so no access misses the storage of a
region.
-/

namespace EightBit

namespace Outcome

variable {α β : Type}

/-- The computation reaches a result that meets the condition, or it stops at one of the addresses
that nobody answers for; it never misses the storage of a region. -/
def Guarded (gap : Address → Prop) (condition : α → Prop) : Except Crash α → Prop
  | .ok result => condition result
  | .error crash => ∃ address, gap address ∧ crash = .unmapped address

/-- A guard may be widened, and a condition weakened. -/
theorem Guarded.mono {gap wider : Address → Prop} {condition weaker : α → Prop}
    {start : Except Crash α} (guarded : Guarded gap condition start)
    (gaps : ∀ address, gap address → wider address)
    (weaken : ∀ result, condition result → weaker result) : Guarded wider weaker start := by
  cases start with
  | error crash =>
      obtain ⟨address, missing, same⟩ := guarded
      exact ⟨address, gaps address missing, same⟩
  | ok result => exact weaken result guarded

/-- A sequence is guarded if both its parts are. -/
theorem Guarded.bind {gap : Address → Prop} {middle : α → Prop} {condition : β → Prop}
    {start : Except Crash α} {rest : α → Except Crash β} (guarded : Guarded gap middle start)
    (follow : ∀ result, middle result → Guarded gap condition (rest result)) :
    Guarded gap condition (start >>= rest) := by
  cases start with
  | error crash => exact guarded
  | ok result => exact follow result guarded

/-- A change of the result needs no guard. -/
theorem Guarded.map {gap : Address → Prop} {middle : α → Prop} {condition : β → Prop}
    {start : Except Crash α} {change : α → β} (guarded : Guarded gap middle start)
    (follow : ∀ result, middle result → condition (change result)) :
    Guarded gap condition (change <$> start) := by
  cases start with
  | error crash => exact guarded
  | ok result => exact follow result guarded

/-- What is known of the result may be added to the condition. -/
theorem Guarded.strengthen {gap : Address → Prop} {known condition : α → Prop}
    {start : Except Crash α} (guarded : Guarded gap known start)
    (more : ∀ result, start = .ok result → condition result) :
    Guarded gap (fun result => known result ∧ condition result) start := by
  cases start with
  | error crash => exact guarded
  | ok result => exact ⟨guarded, more result rfl⟩

/-- The computation has a result, and it meets the condition. -/
abbrev Served (condition : α → Prop) (start : Except Crash α) : Prop :=
  Guarded (fun _ => False) condition start

/-- What is served has a result. -/
theorem Served.result {condition : α → Prop} {start : Except Crash α}
    (served : Served condition start) : ∃ result, start = .ok result ∧ condition result := by
  cases start with
  | error crash =>
      obtain ⟨_, missing, _⟩ := served
      exact missing.elim
  | ok result => exact ⟨result, rfl, served⟩

end Outcome

namespace Bus

open Outcome

variable {D : Type} {bus : Bus D}

/-- Nobody answers for the address. -/
def Gap (bus : Bus D) (address : Address) : Prop := bus.owner address = none

/-- Accesses leave the gaps where they are. -/
theorem Follows.gap {earlier later : Bus D} (follows : Follows earlier later)
    (address : Address) (missing : later.Gap address) : earlier.Gap address := by
  rw [Gap, ← follows.owner]
  exact missing

/-- What is done after an access meets the gaps that were there before it. -/
theorem Follows.guarded {α : Type} {earlier later : Bus D} (follows : Follows earlier later)
    {bus : α → Bus D} {start : Except Crash α}
    (guarded : Guarded later.Gap (fun outcome => Follows later (bus outcome)) start) :
    Guarded earlier.Gap (fun outcome => Follows earlier (bus outcome)) start :=
  guarded.mono follows.gap fun _ rest => follows.trans rest

/-- An access that stops at gaps only leaves a sound bus. -/
theorem Sound.guarded {α : Type} (sound : bus.Sound) {next : α → Bus D} {start : Except Crash α}
    (guarded : Guarded bus.Gap (fun outcome => Follows bus (next outcome)) start) :
    Guarded (fun _ => True) Sound (next <$> start) :=
  (guarded.mono (fun _ _ => trivial) fun _ follows => sound.follows follows).map fun _ kept => kept

/-- The owner of an address is attached and has a place for the address. -/
theorem Sound.lookup (sound : bus.Sound) {address : Address} {id : Nat}
    (owned : bus.owner address = some id) :
    ∃ region, bus.regions[id]? = some region ∧ region.Filled ∧
      region.range.containsAddress address ∧
      (region.range.offsetOf address).toNat < region.range.size := by
  obtain ⟨region, attached, inside⟩ := sound.owned owned
  exact ⟨region, attached, sound.filled attached, inside,
    (AddressRange.toNat_offsetOf inside).2⟩

variable [Peripheral D]

/-- A look at a gap crashes. -/
theorem peek_gap {address : Address} (gap : bus.owner address = none) :
    bus.peek address = .error (.unmapped address) := by
  rw [peek, gap]

/-- A read from a gap crashes. -/
theorem read_gap {address : Address} (gap : bus.owner address = none) :
    bus.read address = .error (.unmapped address) := by
  rw [read, gap]

theorem write_gap {address : Address} (gap : bus.owner address = none) (value : UInt8) :
    bus.write address value = .error (.unmapped address) := by
  rw [write, gap]

/-- A careful look at a gap is refused. -/
theorem tryPeek_gap {address : Address} (gap : bus.owner address = none) :
    bus.tryPeek address = .ok (.error (.dispatchGap address)) := by
  rw [tryPeek, gap]

/-- A careful read from a gap is refused, and nothing changes. -/
theorem tryRead_gap {address : Address} (gap : bus.owner address = none) :
    bus.tryRead address = .ok (.error (.dispatchGap address), bus) := by
  rw [tryRead, gap]

theorem tryWrite_gap {address : Address} (gap : bus.owner address = none) (value : UInt8) :
    bus.tryWrite address value = .ok (.error (.dispatchGap address), bus) := by
  rw [tryWrite, gap]

/-- Where an address has an owner, a careful look is a look. -/
theorem tryPeek_owned {address : Address} {id : Nat} (owned : bus.owner address = some id) :
    bus.tryPeek address = Except.ok <$> bus.peek address := by
  rw [tryPeek, owned]
  cases bus.peek address <;> rfl

/-- Where an address has an owner, a careful read is a read. -/
theorem tryRead_owned {address : Address} {id : Nat} (owned : bus.owner address = some id) :
    bus.tryRead address = (fun (value, after) => (.ok value, after)) <$> bus.read address := by
  rw [tryRead, owned]
  cases bus.read address <;> rfl

theorem tryWrite_owned {address : Address} {id : Nat} (owned : bus.owner address = some id)
    (value : UInt8) :
    bus.tryWrite address value = (fun after => (.ok (), after)) <$> bus.write address value := by
  rw [tryWrite, owned]
  cases bus.write address value <;> rfl

/-- What is seen at an address is what its owner shows at the offset. -/
theorem peek_attached {address : Address} {id : Nat} {region : Region D}
    (owned : bus.owner address = some id) (attached : bus.regions[id]? = some region) :
    bus.peek address = region.peek (region.range.offsetOf address) := by
  rw [peek, owned]
  dsimp only
  rw [attached]

/-- The owner is read at the offset, and the watchpoints notice. -/
theorem read_attached {address : Address} {id : Nat} {region : Region D}
    (owned : bus.owner address = some id) (attached : bus.regions[id]? = some region) :
    bus.read address =
      (fun (value, next, effects) =>
        (value, ((bus.withRegion id next).absorb effects).notice .read address value)) <$>
          region.read (region.range.offsetOf address) := by
  rw [read, owned]
  dsimp only
  rw [onRegion_attached attached]
  cases region.read (region.range.offsetOf address) <;> rfl

/-- The owner is written at the offset, and the watchpoints notice. -/
theorem write_attached {address : Address} {id : Nat} {region : Region D}
    (owned : bus.owner address = some id) (attached : bus.regions[id]? = some region)
    (value : UInt8) :
    bus.write address value =
      (fun (next, effects) =>
        ((bus.withRegion id next).absorb effects).notice .write address value) <$>
          region.write (region.range.offsetOf address) value := by
  rw [write, owned]
  dsimp only
  rw [onRegion_attached attached]
  cases region.write (region.range.offsetOf address) value <;> rfl

/-- On a sound bus an address with an owner can be looked at. -/
theorem Sound.peek (sound : bus.Sound) {address : Address} {id : Nat}
    (owned : bus.owner address = some id) : ∃ value, bus.peek address = .ok value := by
  obtain ⟨region, attached, filled, _, inside⟩ := sound.lookup owned
  rw [peek_attached owned attached]
  exact filled.peek inside

/-- On a sound bus an address with an owner can be read. -/
theorem Sound.read (sound : bus.Sound) {address : Address} {id : Nat}
    (owned : bus.owner address = some id) :
    ∃ value after, bus.read address = .ok (value, after) := by
  obtain ⟨region, attached, filled, _, inside⟩ := sound.lookup owned
  obtain ⟨value, next, effects, served⟩ := filled.read inside
  exact ⟨_, _, by rw [read_attached owned attached, served, map_ok]⟩

theorem Sound.write (sound : bus.Sound) {address : Address} {id : Nat}
    (owned : bus.owner address = some id) (value : UInt8) :
    ∃ after, bus.write address value = .ok after := by
  obtain ⟨region, attached, filled, _, inside⟩ := sound.lookup owned
  obtain ⟨next, effects, served⟩ := filled.write inside value
  exact ⟨_, by rw [write_attached owned attached, served, map_ok]⟩

/-- On a sound bus a byte can be loaded at an address with an owner. -/
theorem Sound.loadOwned (sound : bus.Sound) {address : Address} {id : Nat}
    (owned : bus.owner address = some id) (value : UInt8) :
    ∃ after, bus.loadOwned id address [value] = .ok after := by
  obtain ⟨region, attached, filled, _, inside⟩ := sound.lookup owned
  have fits : (region.range.offsetOf address).toNat + [value].length ≤ region.range.size := inside
  obtain ⟨next, effects, loaded⟩ := filled.load fits
  exact ⟨_, by rw [loadOwned_attached attached, loaded, map_ok]⟩

/-- Byte by byte a copy is served up to the first address without an owner, if there is one. -/
theorem Sound.copyBytes (sound : bus.Sound) (address : Address) (bytes : List UInt8) :
    ∃ result after, bus.copyBytes address bytes = .ok (result, after) ∧
      (result = .ok () ∨ ∃ gap, result = .error (.dispatchGap gap) ∧ bus.owner gap = none) := by
  induction bytes generalizing bus address with
  | nil => exact ⟨.ok (), bus, rfl, .inl rfl⟩
  | cons byte bytes ih =>
      cases owned : bus.owner address with
      | none => exact ⟨_, bus, copyBytes_gap owned byte bytes, .inr ⟨address, rfl, owned⟩⟩
      | some id =>
          obtain ⟨middle, loaded⟩ := sound.loadOwned owned byte
          have follows := loadOwned_follows loaded
          obtain ⟨result, after, copied, ends⟩ := ih (sound.follows follows) address.next
          refine ⟨result, after, ?_, ?_⟩
          · rw [copyBytes_owned owned, loaded, bind_ok, copied]
          · simpa only [follows.owner] using ends

/-- A copy of any block from any address never misses the storage of a region. -/
theorem Sound.copy (sound : bus.Sound) (address : Address) (bytes : List UInt8) :
    ∃ result after, bus.copy address bytes = .ok (result, after) ∧
      (result = .ok () ∨ ∃ gap, result = .error (.dispatchGap gap) ∧ bus.owner gap = none) := by
  obtain ⟨start, same, copied⟩ := sound.copy_eq_copyBytes address bytes
  rw [copied]
  rcases same with rfl | rfl
  · exact sound.copyBytes address bytes
  · exact (sound.follows (report_follows bus _)).copyBytes address bytes

/-- On a sound bus a copy crashes at gaps at most. -/
theorem Sound.copy_guarded (sound : bus.Sound) (address : Address) (bytes : List UInt8) :
    Guarded bus.Gap (fun outcome => Follows bus outcome.2) (bus.copy address bytes) := by
  obtain ⟨result, after, copied, _⟩ := sound.copy address bytes
  rw [copied]
  exact copy_follows copied

/-- On a sound bus a look crashes at gaps only. -/
theorem Sound.peek_guarded (sound : bus.Sound) (address : Address) :
    Guarded bus.Gap (fun _ => True) (bus.peek address) := by
  cases owned : bus.owner address with
  | none =>
      rw [peek_gap owned]
      exact ⟨address, owned, rfl⟩
  | some id =>
      obtain ⟨value, seen⟩ := sound.peek owned
      rw [seen]
      trivial

/-- On a sound bus a read crashes at gaps only. -/
theorem Sound.read_guarded (sound : bus.Sound) (address : Address) :
    Guarded bus.Gap (fun outcome => Follows bus outcome.2) (bus.read address) := by
  cases owned : bus.owner address with
  | none =>
      rw [read_gap owned]
      exact ⟨address, owned, rfl⟩
  | some id =>
      obtain ⟨value, after, served⟩ := sound.read owned
      rw [served]
      exact read_follows served

theorem Sound.write_guarded (sound : bus.Sound) (address : Address) (value : UInt8) :
    Guarded bus.Gap (Follows bus) (bus.write address value) := by
  cases owned : bus.owner address with
  | none =>
      rw [write_gap owned]
      exact ⟨address, owned, rfl⟩
  | some id =>
      obtain ⟨after, served⟩ := sound.write owned value
      rw [served]
      exact write_follows served

/-- On a sound bus a careful read never misses the storage of a region. -/
theorem Sound.tryRead_guarded (sound : bus.Sound) (address : Address) :
    Guarded bus.Gap (fun outcome => Follows bus outcome.2) (bus.tryRead address) := by
  cases owned : bus.owner address with
  | none =>
      rw [tryRead_gap owned]
      exact .refl bus
  | some id =>
      rw [tryRead_owned owned]
      exact (sound.read_guarded address).map fun _ follows => follows

theorem Sound.tryWrite_guarded (sound : bus.Sound) (address : Address) (value : UInt8) :
    Guarded bus.Gap (fun outcome => Follows bus outcome.2) (bus.tryWrite address value) := by
  cases owned : bus.owner address with
  | none =>
      rw [tryWrite_gap owned]
      exact .refl bus
  | some id =>
      rw [tryWrite_owned owned]
      exact (sound.write_guarded address value).map fun _ follows => follows

/-- On a sound bus reading a word crashes at gaps only. -/
theorem Sound.readWord_guarded (sound : bus.Sound) (address : Address) :
    Guarded bus.Gap (fun outcome => Follows bus outcome.2) (bus.readWord address) := by
  apply (sound.read_guarded address).bind
  intro ⟨low, middle⟩ first
  apply first.guarded
  exact ((sound.follows first).read_guarded address.next).map fun _ second => second

theorem Sound.writeWord_guarded (sound : bus.Sound) (address : Address) (value : UInt16) :
    Guarded bus.Gap (Follows bus) (bus.writeWord address value) := by
  apply (sound.write_guarded address _).bind
  intro middle first
  exact first.guarded ((sound.follows first).write_guarded address.next _)

/-- A transaction that reads goes on with what the bus answers. -/
theorem run_read_eq_bind {α : Type} (bus : Bus D) (address : Address)
    (next : UInt8 → Transaction α) :
    (Transaction.read address next).run bus =
      (bus.read address >>= fun outcome => (next outcome.1).run outcome.2) := by
  rw [Transaction.run, show Memory.read bus address = bus.read address from rfl]
  cases bus.read address <;> rfl

/-- A transaction that writes goes on with the bus that the write leaves. -/
theorem run_write_eq_bind {α : Type} (bus : Bus D) (address : Address) (value : UInt8)
    (next : Transaction α) :
    (Transaction.write address value next).run bus =
      (bus.write address value >>= fun after => next.run after) := by
  rw [Transaction.run, show Memory.write bus address value = bus.write address value from rfl]
  cases bus.write address value <;> rfl

/-- A transaction stops at a gap, or it is served to its end. -/
theorem Sound.run_guarded (sound : bus.Sound) {α : Type} (act : Transaction α) :
    Guarded bus.Gap (fun outcome => Follows bus outcome.2) (act.run bus) := by
  induction act generalizing bus with
  | done result => exact Follows.refl bus
  | read address next ih =>
      rw [run_read_eq_bind]
      apply (sound.read_guarded address).bind
      intro outcome first
      exact first.guarded (ih outcome.1 (sound.follows first))
  | write address value next ih =>
      rw [run_write_eq_bind]
      apply (sound.write_guarded address value).bind
      intro after first
      exact first.guarded (ih (sound.follows first))
  | report event next ih =>
      have first := report_follows bus event
      exact first.guarded (ih (sound.follows first))

end Bus

end EightBit
