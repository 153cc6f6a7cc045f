import EightBit.Proofs.Bus.Noticed
import EightBit.Proofs.Machine.Restore

/-
The hits of a bus as the watched part of its history. Whoever writes down the accesses and the
watchpoints of a bus, as the calls return them, knows its hits: they are the first accesses that a
watchpoint was waiting for, since the hits were dropped the last time.
-/

namespace EightBit

namespace Machine

variable {D : Type} [Peripheral D]

/-- Restoring the regions is no access. -/
theorem restoreRegions_noticed {images : List RegionImage} {index : Nat} {bus after : Bus D}
    {result : Except Fault Unit}
    (done : restoreRegions bus index images = .ok (result, after)) : Bus.Noticed bus [] after := by
  induction images generalizing index bus with
  | nil =>
      unfold restoreRegions at done
      cases done
      exact .refl _
  | cons image images ih =>
      unfold restoreRegions at done
      split at done
      · obtain ⟨⟨outcome, middle⟩, restored, rest⟩ := Outcome.bind_eq_ok_iff.mp done
        have start : Bus.Noticed bus [] middle := Bus.onRegion_noticed restored
        cases outcome with
        | error fault =>
            cases rest
            exact start
        | ok _ => exact start.trans (ih rest)
      · cases done
        exact .refl _

/-- Whether a save state is taken over or refused, no access is made. -/
theorem restoreBus_noticed {bus after : Bus D} {saved : SaveState} {result : Except Fault Unit}
    (done : restoreBus bus saved = .ok (result, after)) : Bus.Noticed bus [] after := by
  obtain ⟨log, stages⟩ := restoreBus_stages done
  have start : Bus.Noticed bus [] { bus with log } := .of_frame rfl rfl
  rcases stages with rfl | ⟨outcome, middle, restored, mapped⟩
  · exact start
  · have kept := start.trans (restoreRegions_noticed restored)
    rcases mapped with rfl | rfl
    · exact kept
    · exact kept.trans (middle.applyLayout_noticed saved.layout)

end Machine

namespace Bus

variable {D : Type}

/-- What is written down about a call: the accesses that it made, or what it did about watchpoints
and hits. -/
inductive Entry where
  | accessed (accesses : List WatchHit)
  | watching (watchpoint : Watchpoint)
  | cleared
  | taken (hits : Array WatchHit)

namespace Entry

/-- The watchpoints that were set since they were cleared the last time; the newest entry comes
first. -/
def watchpoints : List Entry → List Watchpoint
  | [] => []
  | watching watchpoint :: past => watchpoints past ++ [watchpoint]
  | cleared :: _ => []
  | _ :: past => watchpoints past

/-- The accesses since the hits were dropped the last time that a watchpoint was waiting for when
they were made. -/
def awaited : List Entry → List WatchHit
  | [] => []
  | accessed accesses :: past =>
      awaited past ++ accesses.filter (Watchpoint.await (watchpoints past))
  | watching _ :: past => awaited past
  | cleared :: _ | taken _ :: _ => []

end Entry

variable [Peripheral D]

/-- A call on a bus, by a processor, a machine or anybody else, and what is written down about
it. -/
inductive Activity (bus : Bus D) : Entry → Bus D → Prop
  | read {address : Address} {value : UInt8} {after : Bus D}
      (done : bus.read address = .ok (value, after)) :
      Activity bus (.accessed [⟨.read, address, value⟩]) after
  | write {address : Address} {value : UInt8} {after : Bus D}
      (done : bus.write address value = .ok after) :
      Activity bus (.accessed [⟨.write, address, value⟩]) after
  | tryRead {address : Address} {value : UInt8} {after : Bus D}
      (done : bus.tryRead address = .ok (.ok value, after)) :
      Activity bus (.accessed [⟨.read, address, value⟩]) after
  | tryReadRefused {address : Address} {fault : Fault} {after : Bus D}
      (done : bus.tryRead address = .ok (.error fault, after)) : Activity bus (.accessed []) after
  | tryWrite {address : Address} {value : UInt8} {after : Bus D}
      (done : bus.tryWrite address value = .ok (.ok (), after)) :
      Activity bus (.accessed [⟨.write, address, value⟩]) after
  | tryWriteRefused {address : Address} {value : UInt8} {fault : Fault} {after : Bus D}
      (done : bus.tryWrite address value = .ok (.error fault, after)) :
      Activity bus (.accessed []) after
  | readWord {address : Address} {word : UInt16} {after : Bus D}
      (done : bus.readWord address = .ok (word, after)) :
      Activity bus (.accessed
        [⟨.read, address, Address.lo word⟩, ⟨.read, address.next, Address.hi word⟩]) after
  | writeWord {address : Address} {word : UInt16} {after : Bus D}
      (done : bus.writeWord address word = .ok after) :
      Activity bus (.accessed
        [⟨.write, address, Address.lo word⟩, ⟨.write, address.next, Address.hi word⟩]) after
  /-- The processor steps, enters a handler, or does anything else that is a transaction. -/
  | serve {α : Type} {act : Transaction α} {result : α} {after : Bus D}
      (done : act.run bus = .ok (result, after)) :
      Activity bus (.accessed (act.accesses bus)) after
  | peek {address : Address} {value : UInt8} (seen : bus.peek address = .ok value) :
      Activity bus (.accessed []) bus
  | tryPeek {address : Address} {result : Except Fault UInt8}
      (seen : bus.tryPeek address = .ok result) : Activity bus (.accessed []) bus
  | peekWord {address : Address} {word : UInt16} (seen : bus.peekWord address = .ok word) :
      Activity bus (.accessed []) bus
  | slice {address : Address} {size : Nat} {bytes : List UInt8}
      (seen : bus.slice address size = .ok bytes) : Activity bus (.accessed []) bus
  | dump {range : AddressRange} {bytes : List UInt8} (seen : bus.dump range = .ok bytes) :
      Activity bus (.accessed []) bus
  | list {address : Address} {line : String} {length : Nat}
      (seen : Listing.lineAt bus.peek address = .ok (line, length)) :
      Activity bus (.accessed []) bus
  | save {machine : Machine D} {saved : SaveState} (same : machine.bus = bus)
      (seen : machine.save = saved) : Activity bus (.accessed []) bus
  | restore {saved : SaveState} {result : Except Fault Unit} {after : Bus D}
      (done : Machine.restoreBus bus saved = .ok (result, after)) :
      Activity bus (.accessed []) after
  | copy {address : Address} {bytes : List UInt8} {result : Except Fault Unit} {after : Bus D}
      (done : bus.copy address bytes = .ok (result, after)) : Activity bus (.accessed []) after
  | tick (cycles : Nat) : Activity bus (.accessed []) (bus.tick cycles)
  | attach (region : Region D) : Activity bus (.accessed []) (bus.attach region).2
  | add (region : Region D) : Activity bus (.accessed []) (bus.add region).2
  | map (id : Nat) : Activity bus (.accessed []) (bus.map id).2
  | applyLayout (layout : List MappedSpan) :
      Activity bus (.accessed []) (bus.applyLayout layout).2
  /-- A region is used directly, not through the bus. -/
  | region {id : Nat} {region next : Region D} {effects : List Effect}
      (attached : bus.regions[id]? = some region) (step : region.Step next effects) :
      Activity bus (.accessed []) ((bus.withRegion id next).absorb effects)
  | newLine : Activity bus (.accessed []) bus.newLine.2
  | raise (line : Line) : Activity bus (.accessed []) (bus.raise line)
  | sense (line : Line) : Activity bus (.accessed []) (bus.sense line).2
  | report (event : Event) : Activity bus (.accessed []) (bus.report event)
  | takeNotes (book : String) : Activity bus (.accessed []) (bus.takeNotes book).2
  | watch (range : AddressRange) (trigger : Trigger) :
      Activity bus (.watching ⟨range, trigger⟩) (bus.watch range trigger)
  | clearWatchpoints : Activity bus .cleared bus.clearWatchpoints
  | takeHits : Activity bus (.taken bus.takeHits.1) bus.takeHits.2

/-- The entries about all calls on a new bus, the newest one first. -/
inductive Recorded : List Entry → Bus D → Prop
  | empty : Recorded [] .empty
  | call {past : List Entry} {bus after : Bus D} {entry : Entry} (recorded : Recorded past bus)
      (activity : Activity bus entry after) : Recorded (entry :: past) after

/-- The accesses of a call are noticed as they are written down. -/
theorem Activity.noticed {bus after : Bus D} {accesses : List WatchHit}
    (activity : Activity bus (.accessed accesses) after) : Noticed bus accesses after := by
  cases activity with
  | read done => exact read_noticed done
  | write done => exact write_noticed done
  | tryRead done => exact tryRead_noticed done
  | tryReadRefused done => exact tryRead_noticed done
  | tryWrite done => exact tryWrite_noticed done
  | tryWriteRefused done => exact tryWrite_noticed done
  | readWord done => exact readWord_noticed done
  | writeWord done => exact writeWord_noticed done
  | serve done => exact run_noticed done
  | peek seen => exact .refl bus
  | tryPeek seen => exact .refl bus
  | peekWord seen => exact .refl bus
  | slice seen => exact .refl bus
  | dump seen => exact .refl bus
  | list seen => exact .refl bus
  | save same seen => exact .refl bus
  | restore done => exact Machine.restoreBus_noticed done
  | copy done => exact copy_noticed done
  | tick cycles => exact bus.tick_noticed cycles
  | attach region => exact .of_frame rfl rfl
  | add region => exact bus.add_noticed region
  | map id => exact bus.map_noticed id
  | applyLayout layout => exact bus.applyLayout_noticed layout
  | region attached step => exact .of_frame (absorb_hits ..) (absorb_watchpoints ..)
  | newLine => exact .of_frame rfl rfl
  | raise line => exact .of_frame rfl rfl
  | sense line => exact .of_frame rfl rfl
  | report event => exact .of_frame rfl rfl
  | takeNotes book => exact .of_frame rfl rfl

/-- The bus has the watchpoints and the hits that the entries tell. -/
structure Agrees (past : List Entry) (bus : Bus D) : Prop where
  watchpoints : bus.watchpoints = Entry.watchpoints past
  hits : bus.hits.toList = (Entry.awaited past).take maxHits

/-- A call continues the agreement by its own entry. -/
theorem Agrees.activity {past : List Entry} {bus after : Bus D} {entry : Entry}
    (agrees : Agrees past bus) (activity : Activity bus entry after) :
    Agrees (entry :: past) after := by
  cases entry with
  | accessed accesses =>
      have noticed := activity.noticed
      have room : bus.hits.size ≤ maxHits := by
        rw [← Array.length_toList, agrees.hits, List.length_take]
        exact Nat.min_le_left ..
      refine ⟨noticed.watchpoints.trans agrees.watchpoints, ?_⟩
      rw [noticed.hits room, agrees.hits, agrees.watchpoints, take_append_take, Entry.awaited]
  | watching watchpoint =>
      cases activity with
      | watch range trigger => exact ⟨congrArg (· ++ [_]) agrees.watchpoints, agrees.hits⟩
  | cleared =>
      cases activity
      exact ⟨rfl, rfl⟩
  | taken hits =>
      cases activity
      exact ⟨agrees.watchpoints, rfl⟩

/-- What was recorded agrees with the bus. -/
theorem Recorded.agrees {past : List Entry} {bus : Bus D} (recorded : Recorded past bus) :
    Agrees past bus := by
  induction recorded with
  | empty => exact ⟨rfl, rfl⟩
  | call _ activity ih => exact ih.activity activity

/-- The hits are the first accesses that were waited for, and so are the hits that were taken
before. -/
theorem hits_are_awaited_accesses {past : List Entry} {bus : Bus D}
    (recorded : Recorded past bus) :
    bus.hits.toList = (Entry.awaited past).take 1024 ∧
      ∀ later earlier hits, past = later ++ .taken hits :: earlier →
        hits.toList = (Entry.awaited earlier).take 1024 := by
  refine ⟨recorded.agrees.hits, ?_⟩
  intro later earlier hits split
  induction recorded generalizing later with
  | empty => simp at split
  | @call past bus after entry recorded activity ih =>
      cases later with
      | nil =>
          obtain ⟨rfl, rfl⟩ := List.cons.inj split
          cases activity
          exact recorded.agrees.hits
      | cons newest later =>
          exact ih later (List.cons.inj split).2

/-- A watchpoint takes no address from its owner. -/
@[simp] theorem owner_watch {D : Type} (bus : Bus D) (range : AddressRange) (trigger : Trigger)
    (address : Address) : (bus.watch range trigger).owner address = bus.owner address := rfl

/-- Of a write and a read of the same page only the write is waited for. -/
theorem write_is_awaited : ∃ (bus : Bus Unpopulated) (value : UInt8),
    Recorded [.accessed [⟨.read, 0xd020, value⟩], .accessed [⟨.write, 0xd021, 6⟩],
      .watching ⟨.page 0xd0, some .write⟩, .accessed []] bus ∧
      bus.hits.toList = [⟨.write, 0xd021, 6⟩] := by
  have sound : ((flat : Bus Unpopulated).watch (.page 0xd0) (some .write)).Sound :=
    reachable_flat.sound.step (.watch (.page 0xd0) (some .write))
  have owned : ∀ address,
      ((flat : Bus Unpopulated).watch (.page 0xd0) (some .write)).owner address = some 0 := by
    intro address
    rw [owner_watch, flat_owner]
  obtain ⟨written, stored⟩ := sound.write (owned 0xd021) 6
  have follows := write_follows stored
  obtain ⟨value, seen, answer⟩ :=
    (sound.follows follows).read ((follows.owner 0xd020).trans (owned 0xd020))
  have recorded := (((Recorded.empty.call (.add .fullRam)).call
    (.watch (.page 0xd0) (some .write))).call (.write stored)).call (.read answer)
  refine ⟨seen, value, recorded, ?_⟩
  rw [(hits_are_awaited_accesses recorded).1]
  rfl

end Bus

end EightBit
