import EightBit.Proofs.Bus.Service
import EightBit.Proofs.Transaction.Accesses

/-
What the watchpoints notice. The hits of a bus grow by the accesses that a watchpoint waits for, in
their order and as long as there is room; nothing else that is done to a bus leaves a hit.
-/

namespace EightBit

/-- One of the watchpoints waits for such an access. -/
def Watchpoint.await (watchpoints : List Watchpoint) (access : WatchHit) : Bool :=
  watchpoints.any fun watchpoint => watchpoint.notices access.access access.address

namespace Bus

open Outcome

variable {D : Type}

/-- What did not fit does not fit later either. -/
theorem take_append_take {α : Type} (limit : Nat) (first second : List α) :
    (first.take limit ++ second).take limit = (first ++ second).take limit := by
  simp only [List.take_append, List.take_take, List.length_take, Nat.min_self]
  by_cases fits : first.length ≤ limit
  · rw [Nat.min_eq_right fits]
  · rw [Nat.min_eq_left (Nat.le_of_not_le fits), Nat.sub_self,
      Nat.sub_eq_zero_of_le (Nat.le_of_not_le fits)]

/-- The accesses were made in between. Those that were waited for are among the hits, up to the
limit. -/
structure Noticed (before : Bus D) (accesses : List WatchHit) (after : Bus D) : Prop where
  watchpoints : after.watchpoints = before.watchpoints
  hits : before.hits.size ≤ maxHits → after.hits.toList =
    (before.hits.toList ++ accesses.filter (Watchpoint.await before.watchpoints)).take maxHits

variable {before after : Bus D} {accesses : List WatchHit}

/-- Hits that had room have room afterwards. -/
theorem Noticed.room (noticed : Noticed before accesses after)
    (room : before.hits.size ≤ maxHits) : after.hits.size ≤ maxHits := by
  rw [← Array.length_toList, noticed.hits room, List.length_take]
  exact Nat.min_le_left ..

/-- The accesses of two parts are noticed one after the other. -/
theorem Noticed.trans {last : Bus D} {more : List WatchHit}
    (start : Noticed before accesses after) (rest : Noticed after more last) :
    Noticed before (accesses ++ more) last where
  watchpoints := rest.watchpoints.trans start.watchpoints
  hits room := by
    rw [rest.hits (start.room room), start.hits room, start.watchpoints, take_append_take,
      List.filter_append, List.append_assoc]

/-- Where neither hits nor watchpoints change, no access was made. -/
theorem Noticed.of_frame (hits : after.hits = before.hits)
    (watchpoints : after.watchpoints = before.watchpoints) : Noticed before [] after where
  watchpoints := watchpoints
  hits room := by
    rw [hits, List.filter_nil, List.append_nil, List.take_of_length_le (by simpa using room)]

theorem Noticed.refl (bus : Bus D) : Noticed bus [] bus := .of_frame rfl rfl

/-- One access leaves one hit at most, however many watchpoints wait for it. -/
theorem notice_noticed (bus : Bus D) (access : Access) (address : Address) (value : UInt8) :
    Noticed bus [⟨access, address, value⟩] (bus.notice access address value) := by
  have waited : Watchpoint.await bus.watchpoints ⟨access, address, value⟩ =
      bus.watchpoints.any fun watchpoint => watchpoint.notices access address := rfl
  refine ⟨?_, fun room => ?_⟩
  · obtain ⟨hits, log, same⟩ := bus.notice_frame access address value
    rw [same]
  · have fits : bus.hits.toList.length ≤ maxHits := by simpa using room
    rw [notice, ← waited]
    by_cases wanted : Watchpoint.await bus.watchpoints ⟨access, address, value⟩ = true
    · rw [if_pos wanted, List.filter_cons_of_pos wanted, List.filter_nil]
      by_cases full : maxHits ≤ bus.hits.size
      · rw [if_pos full, List.take_append_of_le_length (by simpa using full),
          List.take_of_length_le fits]
        rfl
      · have longer : (bus.hits.toList ++ [(⟨access, address, value⟩ : WatchHit)]).length ≤
            maxHits := by
          simp only [List.length_append, Array.length_toList, List.length_singleton]
          omega
        rw [if_neg full, List.take_of_length_le longer]
        exact Array.toList_push
    · rw [if_neg wanted, List.filter_cons_of_neg wanted, List.filter_nil, List.append_nil,
        List.take_of_length_le fits]

/-- What is done to a region by itself is noticed by nobody. -/
theorem onRegion_noticed {α : Type} {id : Nat} {result : α}
    {act : Region D → Except Crash (α × Region D × List Effect)}
    (done : before.onRegion id act = .ok (result, after)) : Noticed before [] after := by
  cases attached : before.regions[id]? with
  | none =>
      rw [onRegion_missing attached] at done
      cases done
  | some region =>
      rw [onRegion_attached attached] at done
      obtain ⟨⟨_, next, effects⟩, _, same⟩ := map_eq_ok_iff.mp done
      cases same
      exact .of_frame (absorb_hits _ effects) (absorb_watchpoints _ effects)

theorem remap_noticed (bus : Bus D) (id : Nat) : Noticed bus [] (bus.remap id) := by
  unfold remap
  split <;> exact .of_frame rfl rfl

theorem map_noticed (bus : Bus D) (id : Nat) : Noticed bus [] (bus.map id).2 := by
  unfold map
  split
  · exact bus.remap_noticed id
  · exact .refl bus

/-- Adding a region is no access. -/
theorem add_noticed (bus : Bus D) (region : Region D) : Noticed bus [] (bus.add region).2 := by
  have attached : Noticed bus [] (bus.attach region).2 := .of_frame rfl rfl
  exact attached.trans (remap_noticed ..)

theorem applyLayout_noticed (bus : Bus D) (layout : List MappedSpan) :
    Noticed bus [] (bus.applyLayout layout).2 := by
  unfold applyLayout
  split <;> exact .of_frame rfl rfl

variable [Peripheral D]

/-- A read is noticed as one access with the byte that it returns. -/
theorem read_noticed {address : Address} {value : UInt8}
    (done : before.read address = .ok (value, after)) :
    Noticed before [⟨.read, address, value⟩] after := by
  rw [read] at done
  split at done
  · cases done
  · obtain ⟨⟨seen, middle⟩, served, rest⟩ := bind_eq_ok_iff.mp done
    cases rest
    exact (onRegion_noticed served).trans (notice_noticed ..)

/-- A write is noticed as one access with its byte. -/
theorem write_noticed {address : Address} {value : UInt8}
    (done : before.write address value = .ok after) :
    Noticed before [⟨.write, address, value⟩] after := by
  rw [write] at done
  split at done
  · cases done
  · obtain ⟨⟨_, middle⟩, served, rest⟩ := bind_eq_ok_iff.mp done
    cases rest
    exact (onRegion_noticed served).trans (notice_noticed ..)

/-- A read that is refused at a gap is no access. -/
theorem tryRead_noticed {address : Address} {result : Except Fault UInt8}
    (done : before.tryRead address = .ok (result, after)) :
    Noticed before (match result with
      | .ok value => [⟨.read, address, value⟩]
      | .error _ => []) after := by
  cases owned : before.owner address with
  | none =>
      rw [tryRead_gap owned] at done
      cases done
      exact .refl _
  | some id =>
      rw [tryRead_owned owned] at done
      obtain ⟨_, served, same⟩ := map_eq_ok_iff.mp done
      cases same
      exact read_noticed served

/-- A write that is refused is not noticed. -/
theorem tryWrite_noticed {address : Address} {value : UInt8} {result : Except Fault Unit}
    (done : before.tryWrite address value = .ok (result, after)) :
    Noticed before (match result with
      | .ok _ => [⟨.write, address, value⟩]
      | .error _ => []) after := by
  cases owned : before.owner address with
  | none =>
      rw [tryWrite_gap owned] at done
      cases done
      exact .refl _
  | some id =>
      rw [tryWrite_owned owned] at done
      obtain ⟨_, served, same⟩ := map_eq_ok_iff.mp done
      cases same
      exact write_noticed served

/-- The low byte is read first, and the high byte from the next address. -/
theorem readWord_noticed {address : Address} {word : UInt16}
    (done : before.readWord address = .ok (word, after)) :
    Noticed before [⟨.read, address, Address.lo word⟩, ⟨.read, address.next, Address.hi word⟩]
      after := by
  obtain ⟨⟨low, middle⟩, first, rest⟩ := bind_eq_ok_iff.mp done
  obtain ⟨⟨high, last⟩, second, same⟩ := bind_eq_ok_iff.mp rest
  cases same
  rw [Address.lo_ofBytes, Address.hi_ofBytes]
  exact (read_noticed first).trans (read_noticed second)

/-- A word is written in two accesses, the lower byte first. -/
theorem writeWord_noticed {address : Address} {word : UInt16}
    (done : before.writeWord address word = .ok after) :
    Noticed before [⟨.write, address, Address.lo word⟩, ⟨.write, address.next, Address.hi word⟩]
      after := by
  obtain ⟨middle, first, second⟩ := bind_eq_ok_iff.mp done
  exact (write_noticed first).trans (write_noticed second)

/-- A transaction is noticed access by access. -/
theorem run_noticed {α : Type} {act : Transaction α} {result : α}
    (served : act.run before = .ok (result, after)) :
    Noticed before (act.accesses before) after := by
  induction act generalizing before with
  | done value =>
      cases served
      exact .refl _
  | read address next ih =>
      rw [run_read_eq_bind] at served
      obtain ⟨⟨value, middle⟩, answer, rest⟩ := bind_eq_ok_iff.mp served
      rw [Transaction.accesses_read answer]
      exact (read_noticed answer).trans (ih value rest)
  | write address value next ih =>
      rw [run_write_eq_bind] at served
      obtain ⟨middle, answer, rest⟩ := bind_eq_ok_iff.mp served
      rw [Transaction.accesses_write answer]
      exact (write_noticed answer).trans (ih rest)
  | report event next ih =>
      have reported : Noticed before [] (before.report event) := .of_frame rfl rfl
      rw [Transaction.accesses_report]
      exact reported.trans (ih served)

theorem loadOwned_noticed {id : Nat} {address : Address} {bytes : List UInt8}
    (done : before.loadOwned id address bytes = .ok after) : Noticed before [] after := by
  obtain ⟨⟨_, middle⟩, served, rest⟩ := bind_eq_ok_iff.mp done
  cases rest
  exact onRegion_noticed served

theorem copyBytes_noticed {address : Address} {bytes : List UInt8} {result : Except Fault Unit}
    (done : before.copyBytes address bytes = .ok (result, after)) : Noticed before [] after := by
  induction bytes generalizing before address with
  | nil =>
      cases done
      exact .refl _
  | cons byte bytes ih =>
      rw [copyBytes] at done
      split at done
      · cases done
        exact .refl _
      · obtain ⟨middle, loaded, rest⟩ := bind_eq_ok_iff.mp done
        exact (loadOwned_noticed loaded).trans (ih rest)

/-- A copy is not noticed. -/
theorem copy_noticed {address : Address} {bytes : List UInt8} {result : Except Fault Unit}
    (done : before.copy address bytes = .ok (result, after)) : Noticed before [] after := by
  rw [copy] at done
  split at done
  · cases done
    exact .refl _
  · split at done
    · cases done
      exact .refl _
    · split at done
      · obtain ⟨middle, loaded, rest⟩ := bind_eq_ok_iff.mp done
        cases rest
        exact loadOwned_noticed loaded
      · have reported : Noticed before []
            (before.report (.copySpansRegions bytes.length address)) := .of_frame rfl rfl
        exact reported.trans (copyBytes_noticed done)

/-- Time that passes is not noticed. -/
theorem tick_noticed (bus : Bus D) (cycles : Nat) : Noticed bus [] (bus.tick cycles) := by
  obtain ⟨effects, same⟩ := bus.tick_frame cycles
  rw [same]
  exact .of_frame (absorb_hits _ effects) (absorb_watchpoints _ effects)

end Bus

end EightBit
