import EightBit.Proofs.Bus.Copy

/-
What the calls on a bus say about it. A history of calls on a bus of plain storage, the newest call
first, tells which region answers for an address and which bytes were stored into its cells; the
bus that the calls lead to is not looked at.
-/

namespace EightBit.Bus

variable {D : Type}

/-- A region of plain storage, with one byte for every address of its range. -/
structure Storage (D : Type) where
  region : Region D
  plain : region.kind ≠ .io
  filled : region.Filled

/-- Calls on a bus of plain storage. -/
inductive Call (D : Type) where
  | attach (storage : Storage D)
  | add (storage : Storage D)
  | map (id : Nat)
  | read (address : Address)
  | tryRead (address : Address)
  | write (address : Address) (value : UInt8)
  | tryWrite (address : Address) (value : UInt8)
  | copy (address : Address) (bytes : List UInt8)

/-- A place in the storage of an attached region. -/
structure Cell where
  region : Nat
  offset : Nat
  deriving DecidableEq

/-- A byte that went into a cell. -/
structure Store where
  cell : Cell
  value : UInt8

/-- The byte that was stored last into the cell, if there is one; the newest store comes first. -/
def lastStored (stores : List Store) (cell : Cell) : Option UInt8 :=
  (stores.find? fun store => store.cell = cell).map Store.value

namespace History

/-- The regions in the order they were attached. -/
def attached : List (Call D) → List (Storage D)
  | [] => []
  | .attach storage :: past => attached past ++ [storage]
  | .add storage :: past => attached past ++ [storage]
  | _ :: past => attached past

/-- The region of the newest `add`, or `map` of an attached region, whose range contains the
address. -/
def owner : List (Call D) → Address → Option Nat
  | [], _ => none
  | .add storage :: past, address =>
      if storage.region.range.containsAddress address then some (attached past).length
      else owner past address
  | .map id :: past, address =>
      match (attached past)[id]? with
      | some storage =>
          if storage.region.range.containsAddress address then some id else owner past address
      | none => owner past address
  | _ :: past, address => owner past address

/-- The place in the storage of its owner that the address stands for. -/
def cell? (past : List (Call D)) (address : Address) : Option (Storage D × Cell) :=
  match owner past address with
  | none => none
  | some id => (attached past)[id]?.map fun storage =>
      (storage, ⟨id, (storage.region.range.offsetOf address).toNat⟩)

/-- The processor stores into memory that can be written. -/
def written (past : List (Call D)) (address : Address) (value : UInt8) : List Store :=
  match cell? past address with
  | some (storage, cell) => if storage.region.kind = .ram then [⟨cell, value⟩] else []
  | none => []

/-- A copy stores into all memory, up to the first address without an owner; the newest store comes
first. -/
def copied (past : List (Call D)) (address : Address) : List UInt8 → List Store
  | [] => []
  | byte :: rest =>
      match cell? past address with
      | some (_, cell) => copied past address.next rest ++ [⟨cell, byte⟩]
      | none => []

/-- The stores of one call, each into the cell that its address stood for before. -/
def made (past : List (Call D)) : Call D → List Store
  | .write address value => written past address value
  | .tryWrite address value => written past address value
  | .copy address bytes => copied past address bytes
  | _ => []

/-- The stores of all calls, the newest store first. -/
def stores : List (Call D) → List Store
  | [] => []
  | call :: past => made past call ++ stores past

/-- An access that cannot be refused ends the calls if the address has no owner. -/
def gap? (past : List (Call D)) (address : Address) : Option Address :=
  if owner past address = none then some address else none

/-- The address without an owner where the calls ended. -/
def ended : List (Call D) → Option Address
  | [] => none
  | .read address :: past => (ended past).or (gap? past address)
  | .write address _ :: past => (ended past).or (gap? past address)
  | _ :: past => ended past

end History

@[simp] theorem lastStored_nil (cell : Cell) : lastStored [] cell = none := rfl

/-- What was stored last in a cell is found there. -/
@[simp] theorem lastStored_cons_self (cell : Cell) (value : UInt8) (earlier : List Store) :
    lastStored (⟨cell, value⟩ :: earlier) cell = some value := by
  simp [lastStored]

/-- A store into another cell does not matter. -/
theorem lastStored_cons_ne {store : Store} {cell : Cell} (different : store.cell ≠ cell)
    (earlier : List Store) : lastStored (store :: earlier) cell = lastStored earlier cell := by
  simp [lastStored, different]

/-- Stores into other cells do not matter. -/
theorem lastStored_append {recent : List Store} {cell : Cell}
    (others : ∀ store ∈ recent, store.cell ≠ cell) (earlier : List Store) :
    lastStored (recent ++ earlier) cell = lastStored earlier cell := by
  induction recent with
  | nil => rfl
  | cons store recent ih =>
      have different : store.cell ≠ cell := others store List.mem_cons_self
      have rest := ih fun other member => others other (List.mem_cons_of_mem _ member)
      rw [List.cons_append, lastStored_cons_ne different, rest]

namespace History

variable {past : List (Call D)} {address : Address}

/-- An address without an owner is a gap. -/
theorem gap?_eq_some (gap : owner past address = none) : gap? past address = some address :=
  if_pos gap

/-- An address with an owner is no gap. -/
theorem gap?_eq_none {id : Nat} (owned : owner past address = some id) :
    gap? past address = none := by
  have present : owner past address ≠ none := by simp [owned]
  exact if_neg present

/-- Once the calls have ended, no later call is made. -/
theorem ended_cons {place : Address} (stopped : ended past = some place) (call : Call D) :
    ended (call :: past) = some place := by
  cases call <;> simp [ended, stopped]

/-- No cell stands for a gap. -/
theorem cell?_eq_none (gap : owner past address = none) : cell? past address = none := by
  rw [cell?, gap]

/-- An address with an owner stands for a cell of its storage. -/
theorem cell?_eq_some {id : Nat} {storage : Storage D} (owned : owner past address = some id)
    (found : (attached past)[id]? = some storage) :
    cell? past address = some (storage, ⟨id, (storage.region.range.offsetOf address).toNat⟩) := by
  rw [cell?, owned]
  dsimp only
  rw [found, Option.map_some]

/-- An address stands for the cell at its offset in the storage of its owner. -/
theorem cell?_eq_some_iff {storage : Storage D} {cell : Cell} :
    cell? past address = some (storage, cell) ↔
      owner past address = some cell.region ∧ (attached past)[cell.region]? = some storage ∧
        (storage.region.range.offsetOf address).toNat = cell.offset := by
  obtain ⟨id, offset⟩ := cell
  cases owned : owner past address with
  | none => simp [cell?_eq_none owned]
  | some other =>
      cases found : (attached past)[other]? with
      | none =>
          simp only [cell?, owned, found, Option.map_none, reduceCtorEq, Option.some.injEq,
            false_iff]
          rintro ⟨rfl, again, _⟩
          cases found.symm.trans again
      | some block =>
          rw [cell?_eq_some owned found]
          simp only [Option.some.injEq, Prod.mk.injEq, Cell.mk.injEq]
          constructor
          · rintro ⟨rfl, rfl, rfl⟩
            exact ⟨rfl, found, rfl⟩
          · rintro ⟨rfl, again, rfl⟩
            rw [found, Option.some.injEq] at again
            exact ⟨again, rfl, by rw [again]⟩

/-- A write to a gap stores nothing. -/
theorem written_gap (gap : owner past address = none) (value : UInt8) :
    written past address value = [] := by
  rw [written, cell?_eq_none gap]

/-- Two addresses never stand for the same cell. -/
theorem cell?_inj {first second : Address} {block other : Storage D} {cell : Cell}
    (left : cell? past first = some (block, cell))
    (right : cell? past second = some (other, cell)) : first = second := by
  obtain ⟨_, found, here⟩ := cell?_eq_some_iff.mp left
  obtain ⟨_, again, there⟩ := cell?_eq_some_iff.mp right
  cases found.symm.trans again
  apply AddressRange.offsetOf_inj.mp
  apply UInt16.toNat_inj.mp
  rw [here, there]

/-- A region stays attached under its number. -/
theorem attached_append {id : Nat} {storage : Storage D}
    (found : (attached past)[id]? = some storage) (later : List (Call D)) :
    (attached (later ++ past))[id]? = some storage := by
  have grown : ∀ other : Storage D, ∀ calls : List (Call D),
      (attached calls)[id]? = some storage →
        (attached calls ++ [other])[id]? = some storage := by
    intro other calls present
    rw [List.getElem?_append_left (List.getElem?_eq_some_iff.mp present).1, present]
  induction later with
  | nil => exact found
  | cons call later ih =>
      cases call with
      | attach other => exact grown other _ ih
      | add other => exact grown other _ ih
      | _ => exact ih

/-- A processor only writes into the cell of the address. -/
theorem cell_of_written {value : UInt8} {store : Store}
    (member : store ∈ written past address value) :
    ∃ storage, cell? past address = some (storage, store.cell) := by
  rw [written] at member
  split at member
  · rename_i storage cell served
    split at member
    · rw [List.mem_singleton.mp member]
      exact ⟨storage, served⟩
    · cases member
  · cases member

/-- A copy only writes into the cells of its addresses. -/
theorem cell_of_copied {bytes : List UInt8} {store : Store}
    (member : store ∈ copied past address bytes) :
    ∃ place storage, cell? past place = some (storage, store.cell) := by
  induction bytes generalizing address with
  | nil => cases member
  | cons byte bytes ih =>
      rw [copied] at member
      split at member
      · rename_i storage cell served
        rcases List.mem_append.mp member with later | here
        · exact ih later
        · rw [List.mem_singleton.mp here]
          exact ⟨address, storage, served⟩
      · cases member

/-- A call that stores something changes no owner, and stores into the cells of some addresses. -/
theorem made_frame {call : Call D} {store : Store} (member : store ∈ made past call) :
    owner (call :: past) = owner past ∧
      ∃ place storage, cell? past place = some (storage, store.cell) := by
  cases call with
  | write address value => exact ⟨rfl, address, cell_of_written member⟩
  | tryWrite address value => exact ⟨rfl, address, cell_of_written member⟩
  | copy address bytes => exact ⟨rfl, cell_of_copied member⟩
  | _ => cases member

/-- The region does not own the address after any of the later calls. -/
def Shadowed (past later : List (Call D)) (id : Nat) (address : Address) : Prop :=
  ∀ recent, recent <:+ later → recent ≠ [] → owner (recent ++ past) address ≠ some id

/-- While a region is shadowed at an address nothing is stored into the cell of that address. -/
theorem Shadowed.lastStored {later : List (Call D)} {id : Nat} {storage : Storage D}
    (shadowed : Shadowed past later id address)
    (found : (attached past)[id]? = some storage) :
    lastStored (stores (later ++ past)) ⟨id, (storage.region.range.offsetOf address).toNat⟩ =
      lastStored (stores past) ⟨id, (storage.region.range.offsetOf address).toNat⟩ := by
  induction later with
  | nil => rfl
  | cons call later ih =>
      have earlier : Shadowed past later id address := fun recent suffix =>
        shadowed recent (suffix.trans (List.suffix_cons call later))
      have others : ∀ store ∈ made (later ++ past) call,
          store.cell ≠ ⟨id, (storage.region.range.offsetOf address).toNat⟩ := by
        intro store member same
        obtain ⟨kept, place, block, served⟩ := made_frame member
        rw [same] at served
        obtain ⟨answers, present, offset⟩ := cell?_eq_some_iff.mp served
        cases (attached_append found later).symm.trans present
        have here : place = address := AddressRange.offsetOf_inj.mp (UInt16.toNat_inj.mp offset)
        have still : owner (call :: later ++ past) address = some id := by
          rw [List.cons_append, kept, ← here]
          exact answers
        exact shadowed _ List.suffix_rfl (List.cons_ne_nil call later) still
      rw [List.cons_append, stores, lastStored_append others, ih earlier]

end History

variable [Peripheral D]

/-- The bus after the call. -/
def Call.perform (bus : Bus D) : Call D → Except Crash (Bus D)
  | attach storage => .ok (bus.attach storage.region).2
  | add storage => .ok (bus.add storage.region).2
  | map id => .ok (bus.map id).2
  | read address => Prod.snd <$> bus.read address
  | tryRead address => Prod.snd <$> bus.tryRead address
  | write address value => bus.write address value
  | tryWrite address value => Prod.snd <$> bus.tryWrite address value
  | copy address bytes => Prod.snd <$> bus.copy address bytes

/-- The calls are made on an empty bus, the last of the list first. -/
def History.run : List (Call D) → Except Crash (Bus D)
  | [] => .ok .empty
  | call :: past => run past >>= fun bus => call.perform bus

end EightBit.Bus
