import EightBit.Proofs.Machine.Commands
import EightBit.Proofs.Machine.Iterated
import EightBit.Proofs.Machine.View

/-
Orders to a machine, and the account of the time that each of them takes. An order lets the machine
run, or it is an aside that takes no time. Time passes instruction by instruction, so the account of
an order lists what each instruction took.
-/

namespace EightBit.Machine

open Outcome

variable {D E : Type}

/-- What may be done to a machine whose clocks nobody sets or advances by hand. -/
inductive Order (D : Type) where
  | call (call : Call)
  | run (stop : Stop D) (limit : Nat)
  | attach (region : Region D)
  | newLine
  | connectIrq (line : Line)
  | connectNmi (line : Line)
  | raise (line : Line)
  | read (address : Address)
  | write (address : Address) (value : UInt8)
  | watch (range : AddressRange) (trigger : Trigger)

/-- The order to a machine with other peripherals: conditions see the view of it, and what is
attached to it gets its peripherals. -/
def Order.lift (view : E → D) (fit : D → E) : Order D → Order E
  | .call asked => .call asked
  | .run stop limit => .run (fun processor bus => stop processor (bus.view view)) limit
  | .attach region => .attach (region.view fit)
  | .newLine => .newLine
  | .connectIrq line => .connectIrq line
  | .connectNmi line => .connectNmi line
  | .raise line => .raise line
  | .read address => .read address
  | .write address value => .write address value
  | .watch range trigger => .watch range trigger

variable [Peripheral D]

/-- The machine after an order, with its response. -/
def perform (machine : Machine D) : Order D → Except Crash (Response × Machine D)
  | .call call => Prod.map .reply id <$> machine.answer call
  | .run stop limit => Prod.map (.reply ∘ .report) id <$> machine.run stop limit
  | .attach region => .ok (machine.putBus .number (machine.bus.attach region))
  | .newLine => .ok (machine.putBus .number machine.bus.newLine)
  | .connectIrq line => .ok (.done, machine.connectIrq line)
  | .connectNmi line => .ok (.done, machine.connectNmi line)
  | .raise line => .ok (.done, { machine with bus := machine.bus.raise line })
  | .read address => machine.putBus .byte <$> machine.bus.read address
  | .write address value =>
      (fun bus => (.done, { machine with bus })) <$> machine.bus.write address value
  | .watch range trigger => .ok (.done, { machine with bus := machine.bus.watch range trigger })

/-- The responses to the orders, one after the other, up to a crash. -/
def performAll (machine : Machine D) : List (Order D) → List Response × Machine D
  | [] => ([], machine)
  | order :: orders =>
      match machine.perform order with
      | .error _ => ([], machine)
      | .ok (response, after) =>
          let (responses, last) := after.performAll orders
          (response :: responses, last)

variable [Peripheral E] {view : E → D} {fit : D → E}

/-- An answer of the view is the view of an answer. -/
theorem answer_view (faithful : Peripheral.Faithful view) (machine : Machine E) (call : Call) :
    (machine.view view).answer call = seen view <$> machine.answer call := by
  cases call with
  | step => rw [answer, answer, step_view faithful, view_map]
  | runFor time => rw [answer, answer, runFor_view faithful, view_map]
  | reset => rw [answer, answer, reset_view faithful, view_map]
  | load address bytes => rw [answer, answer, load_view faithful, view_map]
  | setResetVector address =>
      rw [answer, answer, setResetVector, load_view faithful, view_map, setResetVector]
  | request interrupt => rfl
  | withdraw interrupt => rfl
  | map region =>
      have bus : (machine.view view).bus = machine.bus.view view := rfl
      rw [answer, answer, bus, Bus.map_view]
      rfl

/-- The view performs an order as the machine does. -/
theorem perform_view (faithful : Peripheral.Faithful view)
    (fits : ∀ device, view (fit device) = device) (machine : Machine E) (order : Order D) :
    (machine.view view).perform order = seen view <$> machine.perform (order.lift view fit) := by
  have bus : (machine.view view).bus = machine.bus.view view := rfl
  cases order with
  | call call => rw [Order.lift, perform, perform, answer_view faithful, view_map]
  | run stop limit => rw [Order.lift, perform, perform, run_view faithful, view_map]
  | attach region =>
      have attached : (machine.bus.view view).attach ((region.view fit).view view) =
          Bus.seen view (machine.bus.attach (region.view fit)) := machine.bus.attach_view _
      rw [region.view_view fits] at attached
      rw [Order.lift, perform, perform, bus, attached]
      rfl
  | newLine => rfl
  | connectIrq line => rfl
  | connectNmi line => rfl
  | raise line => rfl
  | read address =>
      rw [Order.lift, perform, perform, bus, Bus.read_view faithful]
      cases machine.bus.read address with
      | error crash => rfl
      | ok outcome => rfl
  | write address value =>
      rw [Order.lift, perform, perform, bus, Bus.write_view faithful]
      cases machine.bus.write address value with
      | error crash => rfl
      | ok after => rfl
  | watch range trigger => rfl

/-- The view performs all orders as the machine does. -/
theorem performAll_view (faithful : Peripheral.Faithful view)
    (fits : ∀ device, view (fit device) = device) (machine : Machine E) (orders : List (Order D)) :
    (machine.view view).performAll orders =
      seen view (machine.performAll (orders.map (Order.lift view fit))) := by
  induction orders generalizing machine with
  | nil => rfl
  | cons order orders ih =>
      rw [List.map_cons, performAll, performAll, perform_view faithful fits]
      cases machine.perform (order.lift view fit) with
      | error crash => rfl
      | ok outcome =>
          rw [map_ok]
          dsimp only [seen]
          rw [ih]
          rfl

end EightBit.Machine
