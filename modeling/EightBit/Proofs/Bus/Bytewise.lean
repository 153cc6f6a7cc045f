import EightBit.Proofs.Bus.Footprint

/-
Copies, byte by byte. However a copy gets its bytes into the regions, it leaves the bus as if each
byte had been loaded alone into the owner of its address, up to the first address without an owner.
A line in the log may tell that the block spans regions.
-/

namespace EightBit.Bus

variable {D : Type} {bus : Bus D}

/-- The bytes of a block, each with its address; after the top of memory comes the bottom. -/
def addressed (address : Address) : List UInt8 → List (Address × UInt8)
  | [] => []
  | byte :: bytes => (address, byte) :: addressed address.next bytes

/-- The addresses of a block. -/
def span (address : Address) (bytes : List UInt8) : List Address :=
  (addressed address bytes).map Prod.fst

/-- The first bytes of a block, so many of them, have addresses with owners. Then the block ends, or
the next address has no owner, which is the result. -/
structure Extent (bus : Bus D) (address : Address) (bytes : List UInt8) (count : Nat)
    (result : Except Fault Unit) : Prop where
  within : count ≤ bytes.length
  owned : ∀ index < count, bus.owner (address + UInt16.ofNat index) ≠ none
  ends : if count = bytes.length then result = .ok ()
    else bus.owner (address + UInt16.ofNat count) = none ∧
      result = .error (.dispatchGap (address + UInt16.ofNat count))

/-- A copy goes one byte further if its first address has an owner. -/
theorem Extent.cons {address : Address} {byte : UInt8} {bytes : List UInt8} {count : Nat}
    {result : Except Fault Unit} (owned : bus.owner address ≠ none)
    (rest : Extent bus address.next bytes count result) :
    Extent bus address (byte :: bytes) (count + 1) result := by
  have shift (index : Nat) :
      address.next + UInt16.ofNat index = address + UInt16.ofNat (index + 1) := by
    rw [UInt16.ofNat_add, Address.next]
    grind
  refine ⟨Nat.succ_le_succ rest.within, fun index below => ?_, ?_⟩
  · cases index with
    | zero =>
        have start : address + UInt16.ofNat 0 = address := UInt16.add_zero address
        rwa [start]
    | succ index =>
        rw [← shift]
        exact rest.owned index (Nat.lt_of_succ_lt_succ below)
  · have ends := rest.ends
    simpa only [List.length_cons, Nat.succ_inj, shift] using ends

/-- Without gaps all bytes are loaded. -/
theorem Extent.whole {address : Address} {bytes : List UInt8} {count : Nat}
    {result : Except Fault Unit} (extent : Extent bus address bytes count result)
    (mapped : ∀ place, bus.owner place ≠ none) : count = bytes.length ∧ result = .ok () := by
  have ends := extent.ends
  split at ends
  · rename_i all
    exact ⟨all, ends⟩
  · exact absurd ends.1 (mapped _)

/-- What effects report comes after what is in the log, and what is there makes no difference. -/
theorem absorb_log (bus : Bus D) (effects : List Effect) :
    ∃ lines, ∀ log, { bus with log }.absorb effects =
      { bus.absorb effects with log := log ++ lines } := by
  induction effects generalizing bus with
  | nil => exact ⟨#[], fun log => by rw [Array.append_empty]; rfl⟩
  | cons effect effects ih =>
      cases effect with
      | raise line => exact ih (bus.raise line)
      | note book entry => exact ih { bus with notes := bus.notes.push (book, entry) }
      | report event =>
          obtain ⟨lines, same⟩ := ih (bus.report event)
          refine ⟨#[event] ++ lines, fun log => ?_⟩
          have pushed : { bus with log }.absorb (.report event :: effects) =
              { bus.report event with log := log.push event }.absorb effects := rfl
          rw [pushed, same, Array.push_eq_append, Array.append_assoc]
          rfl

variable [Peripheral D]

/-- Byte after byte is loaded into the owner of its address. The result names the first address
without an owner, if there is one. -/
inductive Bytewise : Bus D → Address → List UInt8 → Except Fault Unit → Bus D → Prop
  | done (bus : Bus D) (address : Address) : Bytewise bus address [] (.ok ()) bus
  | gap {bus : Bus D} {address : Address} (unowned : bus.owner address = none) (byte : UInt8)
      (bytes : List UInt8) :
      Bytewise bus address (byte :: bytes) (.error (.dispatchGap address)) bus
  | load {bus after : Bus D} {address : Address} {byte : UInt8} {bytes : List UInt8} {id : Nat}
      {region next : Region D} {effects : List Effect} {result : Except Fault Unit}
      (owned : bus.owner address = some id) (attached : bus.regions[id]? = some region)
      (loaded : region.load (region.range.offsetOf address) [byte] = .ok (next, effects))
      (rest : Bytewise ((bus.withRegion id next).absorb effects) address.next bytes result after) :
      Bytewise bus address (byte :: bytes) result after

/-- The bytes have been loaded from the address on. Where storage answers, the last byte for an
address is seen there, and where there is none, what was seen before. No other stored byte is
different, no region without an address in the block, and no watchpoint has noticed anything. -/
structure Loaded (address : Address) (bytes : List UInt8) (before after : Bus D) : Prop where
  changes : ChangesOnly (span address bytes) before after
  shows : ∀ {place : Address} {kind : RegionKind}, before.ownerKind? place = some kind →
    kind ≠ .io → after.peek place =
      ((addressed address bytes).reverse.lookup place).elim (before.peek place) .ok
  untouched : ∀ id, (∀ place ∈ span address bytes, before.owner place ≠ some id) →
    after.regions[id]? = before.regions[id]?
  hits : after.hits = before.hits

/-- The bus after one byte was loaded into the owner of its address. -/
theorem Sound.loaded_byte (sound : bus.Sound) {address : Address} {id : Nat}
    {region next : Region D} {effects : List Effect} {byte : UInt8}
    (owned : bus.owner address = some id) (attached : bus.regions[id]? = some region)
    (loaded : region.load (region.range.offsetOf address) [byte] = .ok (next, effects)) :
    Loaded address [byte] bus ((bus.withRegion id next).absorb effects) := by
  have stored := Region.load_stored loaded
  have follows := Region.load_follows loaded
  refine ⟨withRegion_changesOnly attached follows (fun offset free => ?_) effects, ?_, ?_, ?_⟩
  · rw [stored, Array.getElem?_setIfInBounds_ne (free address List.mem_cons_self owned)]
  · intro place kind answers storage
    have shown := sound.peek_stored owned attached follows.outline stored answers storage
    rw [peek_congr (absorb_regions ..) (absorb_dispatch ..), shown]
    change _ = (List.lookup place [(address, byte)]).elim _ _
    by_cases here : place = address
    · rw [if_pos here, here, List.lookup_cons_self]
      rfl
    · have apart : (place == address) = false := beq_false_of_ne here
      rw [if_neg here, List.lookup_cons, apart]
      rfl
  · intro other free
    rw [absorb_regions, getElem?_withRegion attached]
    by_cases same : id = other
    · exact absurd (same ▸ owned) (free address List.mem_cons_self)
    · exact if_neg same
  · rw [absorb_hits]
    rfl

/-- The first byte and the others make up what is loaded. -/
theorem Loaded.cons {before middle after : Bus D} {address : Address} {byte : UInt8}
    {bytes : List UInt8} (first : Loaded address [byte] before middle)
    (rest : Loaded address.next bytes middle after) :
    Loaded address (byte :: bytes) before after := by
  have follows := first.changes.follows
  refine ⟨first.changes.trans rest.changes, ?_, ?_, rest.hits.trans first.hits⟩
  · intro place kind answers storage
    have still : middle.ownerKind? place = some kind := (follows.ownerKind? place).trans answers
    -- The search starts at the end of the block, so a later byte for the same address wins.
    have order : (addressed address (byte :: bytes)).reverse.lookup place =
        ((addressed address.next bytes).reverse.lookup place).or
          ((addressed address [byte]).reverse.lookup place) := by
      rw [addressed, List.reverse_cons, List.lookup_append]
      rfl
    rw [rest.shows still storage, first.shows answers storage, order]
    cases (addressed address.next bytes).reverse.lookup place <;> rfl
  · intro id free
    have later : ∀ place ∈ span address.next bytes, middle.owner place ≠ some id := by
      intro place member
      rw [follows.owner]
      exact free place (List.mem_cons_of_mem _ member)
    rw [rest.untouched id later]
    exact first.untouched id fun place member =>
      free place (List.mem_cons.mpr (.inl (List.mem_singleton.mp member)))

/-- Loading byte by byte stores the bytes in front of the first gap. -/
theorem Sound.loaded (sound : bus.Sound) {after : Bus D} {address : Address} {bytes : List UInt8}
    {result : Except Fault Unit} (bytewise : Bytewise bus address bytes result after) :
    ∃ count, Extent bus address bytes count result ∧
      Loaded address (bytes.take count) bus after := by
  have nothing (bus : Bus D) (address : Address) : Loaded address [] bus bus :=
    ⟨.of_regions (.refl bus) rfl _, fun _ _ => rfl, fun _ _ => rfl, rfl⟩
  induction bytewise with
  | done bus address => exact ⟨0, ⟨Nat.le_refl _, nofun, rfl⟩, nothing bus address⟩
  | @gap bus address unowned byte bytes =>
      have start : address + UInt16.ofNat 0 = address := UInt16.add_zero address
      refine ⟨0, ⟨Nat.zero_le _, nofun, ?_⟩, nothing bus address⟩
      have short : ¬0 = (byte :: bytes).length := nofun
      rw [if_neg short, start]
      exact ⟨unowned, rfl⟩
  | @load bus after address byte bytes id region next effects result owned attached loaded _ ih =>
      have first := sound.loaded_byte owned attached loaded
      have follows := first.changes.follows
      obtain ⟨count, extent, rest⟩ := ih (sound.follows follows)
      -- The first load leaves every owner, so the gaps are those of the bus before it.
      have before : Extent bus address.next bytes count result := by
        refine ⟨extent.within, fun index below => ?_, ?_⟩
        · rw [← follows.owner]
          exact extent.owned index below
        · have ends := extent.ends
          rwa [follows.owner] at ends
      have present : bus.owner address ≠ none := by rw [owned]; nofun
      exact ⟨count + 1, before.cons present, first.cons rest⟩

/-- On a sound bus the bytes are loaded one by one without a crash. -/
theorem Sound.bytewise (sound : bus.Sound) (address : Address) (bytes : List UInt8) :
    ∃ result after, bus.copyBytes address bytes = .ok (result, after) ∧
      Bytewise bus address bytes result after := by
  induction bytes generalizing bus address with
  | nil => exact ⟨.ok (), bus, rfl, .done bus address⟩
  | cons byte bytes ih =>
      cases owned : bus.owner address with
      | none => exact ⟨_, bus, copyBytes_gap owned byte bytes, .gap owned byte bytes⟩
      | some id =>
          obtain ⟨region, attached, filled, _, inside⟩ := sound.lookup owned
          have fits : (region.range.offsetOf address).toNat + [byte].length ≤ region.range.size :=
            inside
          obtain ⟨next, effects, loaded⟩ := filled.load fits
          have follows := (sound.loaded_byte owned attached loaded).changes.follows
          obtain ⟨result, after, copied, rest⟩ := ih (sound.follows follows) address.next
          refine ⟨result, after, ?_, .load owned attached loaded rest⟩
          rw [copyBytes_owned owned, loadOwned_attached attached, loaded]
          exact copied

/-- What is in the log before makes no difference, and what is reported comes after it. -/
theorem Bytewise.log {after : Bus D} {address : Address} {bytes : List UInt8}
    {result : Except Fault Unit} (bytewise : Bytewise bus address bytes result after) :
    ∃ lines, after.log = bus.log ++ lines ∧
      ∀ log, Bytewise { bus with log } address bytes result { after with log := log ++ lines } := by
  induction bytewise with
  | done bus address =>
      refine ⟨#[], Array.append_empty.symm, fun log => ?_⟩
      rw [Array.append_empty]
      exact .done { bus with log } address
  | @gap bus address unowned byte bytes =>
      refine ⟨#[], Array.append_empty.symm, fun log => ?_⟩
      rw [Array.append_empty]
      have still : Bus.owner { bus with log } address = none := unowned
      exact .gap still byte bytes
  | @load bus after address byte bytes id region next effects result owned attached loaded _ ih =>
      obtain ⟨first, same⟩ := absorb_log (bus.withRegion id next) effects
      obtain ⟨later, grown, rest⟩ := ih
      refine ⟨first ++ later, ?_, fun log => ?_⟩
      · have reported : ((bus.withRegion id next).absorb effects).log = bus.log ++ first :=
          congrArg Bus.log (same bus.log)
        rw [grown, reported, Array.append_assoc]
      · have still : Bus.owner { bus with log } address = some id := owned
        refine .load still attached loaded ?_
        have moved : (Bus.withRegion { bus with log } id next).absorb effects =
            { (bus.withRegion id next).absorb effects with log := log ++ first } := same log
        rw [moved, ← Array.append_assoc]
        exact rest (log ++ first)

/-- Loading byte by byte has one result. -/
theorem Bytewise.unique {first second : Bus D} {address : Address} {bytes : List UInt8}
    {result other : Except Fault Unit} (one : Bytewise bus address bytes result first)
    (two : Bytewise bus address bytes other second) : other = result ∧ second = first := by
  induction one generalizing other second with
  | done bus address =>
      cases two
      exact ⟨rfl, rfl⟩
  | gap unowned byte bytes =>
      cases two with
      | gap => exact ⟨rfl, rfl⟩
      | load owned => cases unowned.symm.trans owned
  | load owned attached loaded _ ih =>
      cases two with
      | gap unowned => cases unowned.symm.trans owned
      | load owner present stored rest =>
          cases owned.symm.trans owner
          cases attached.symm.trans present
          cases loaded.symm.trans stored
          exact ih rest

/-- What was loaded does not depend on the log. -/
theorem Loaded.of_log {after : Bus D} {address : Address} {bytes : List UInt8} {log : Array Event}
    (loaded : Loaded address bytes bus { after with log }) : Loaded address bytes bus after where
  changes := ⟨loaded.changes.follows.trans (.of_frame rfl rfl rfl), loaded.changes.stored⟩
  shows := loaded.shows
  untouched := loaded.untouched
  hits := loaded.hits

/-- A copy never crashes. Its result and the bus after it are those of loading the bytes one by
one, but for a line in the log; the bytes in front of the first gap are stored, and nothing else is
different. -/
theorem copy_is_bytewise (reached : bus.Reachable) (address : Address) (bytes : List UInt8) :
    ∃ result after start lines count,
      bus.copy address bytes = .ok (result, after) ∧
      (start = bus.log ∨ start = bus.log.push (.copySpansRegions bytes.length address)) ∧
      after.log = start ++ lines ∧
      (∀ outcome reference, Bytewise bus address bytes outcome reference ↔
        outcome = result ∧ reference = { after with log := bus.log ++ lines }) ∧
      Extent bus address bytes count result ∧ Loaded address (bytes.take count) bus after := by
  have sound := reached.sound
  obtain ⟨start, reports, copied⟩ := sound.copy_eq_copyBytes address bytes
  have logged : start = { bus with log := start.log } ∧
      (start.log = bus.log ∨
        start.log = bus.log.push (.copySpansRegions bytes.length address)) := by
    obtain rfl | rfl := reports
    · exact ⟨rfl, .inl rfl⟩
    · exact ⟨rfl, .inr rfl⟩
  have follows : bus.Follows start := by
    rw [logged.1]
    exact .of_frame rfl rfl rfl
  obtain ⟨result, after, stored, bytewise⟩ := (sound.follows follows).bytewise address bytes
  obtain ⟨lines, grown, moved⟩ := bytewise.log
  -- The two starts differ in the log only, so what is loaded from one is loaded from the other.
  have reference : Bytewise bus address bytes result { after with log := bus.log ++ lines } := by
    have here := moved bus.log
    rw [logged.1] at here
    exact here
  obtain ⟨count, extent, loaded⟩ := sound.loaded reference
  refine ⟨result, after, start.log, lines, count, copied.trans stored, logged.2, grown, ?_, extent,
    loaded.of_log⟩
  intro outcome other
  constructor
  · exact reference.unique
  · rintro ⟨rfl, rfl⟩
    exact reference

/-- Read-only storage is loaded like any other, and after the top of memory comes the bottom. -/
theorem copy_is_bytewise_around_top :
    romPaged.Reachable ∧ ∃ after, romPaged.copy 0xffff [1, 2] = .ok (.ok (), after) ∧
      after.peek 0xffff = .ok 1 ∧ after.peek 0 = .ok 2 := by
  obtain ⟨result, after, _, _, count, copied, _, _, _, extent, loaded⟩ :=
    copy_is_bytewise romPaged_reachable 0xffff [1, 2]
  have mapped (place : Address) : romPaged.owner place ≠ none := by
    intro unowned
    have kind : romPaged.ownerKind? place = none := by rw [ownerKind?, unowned, Option.bind_none]
    obtain ram | rom := romPaged_storage place
    · cases kind.symm.trans ram
    · cases kind.symm.trans rom
  obtain ⟨rfl, rfl⟩ := extent.whole mapped
  have shown (place : Address) : after.peek place =
      ((addressed 0xffff [1, 2]).reverse.lookup place).elim (romPaged.peek place) .ok := by
    obtain ram | rom := romPaged_storage place
    · exact loaded.shows ram (by decide)
    · exact loaded.shows rom (by decide)
  exact ⟨romPaged_reachable, after, copied, shown 0xffff, shown 0⟩

end EightBit.Bus
