import EightBit.Peripheral.Basic
import EightBit.Text.Hex

/-
The peripherals kept in stock: a probe that writes down its accesses, a file of eight registers, a
countdown timer, and the unpopulated socket.
-/

namespace EightBit

/-- One value, and a note of every access. -/
structure Probe where
  book : String
  value : UInt8
  deriving DecidableEq, Repr

instance : Peripheral Probe where
  name _ := "probe"
  peek device _ := device.value
  read device offset := (device.value, device, [.note device.book s!"r{offset.toNat}"])
  write device offset value :=
    ({ device with value },
      [.note device.book s!"w{offset.toNat}={Text.hex 2 value.toNat}"])
  step device _ := (device, [])
  restore? _ _ := none

/-- Eight registers that repeat over the whole range, and a note of the passing time. -/
structure RegisterBank where
  book : String
  registers : Vector UInt8 8
  deriving DecidableEq, Repr

namespace RegisterBank

def get (bank : RegisterBank) (offset : UInt16) : UInt8 :=
  bank.registers.get (Fin.ofNat 8 offset.toNat)

end RegisterBank

instance : Peripheral RegisterBank where
  name _ := "store"
  peek := RegisterBank.get
  read device offset := (device.get offset, device, [])
  write device offset value :=
    let index := Fin.ofNat 8 offset.toNat
    ({ device with registers := device.registers.set index value }, [])
  step device cycles := (device, [.note device.book s!"t{cycles}"])
  restore? device bytes :=
    let registers := Vector.ofFn fun index => bytes.getD index (device.registers.get index)
    some { device with registers }

/-- A timer that raises its line when the count runs out. Reading the status clears it. -/
structure Countdown where
  line : Line
  counter : Nat
  status : UInt8
  deriving DecidableEq, Repr

namespace Countdown

def peek (device : Countdown) (offset : UInt16) : UInt8 :=
  if offset = 0 then UInt8.ofNat (min device.counter 255) else device.status

end Countdown

instance : Peripheral Countdown where
  name _ := "countdown"
  peek := Countdown.peek
  read device offset :=
    (device.peek offset, if offset = 1 then { device with status := 0 } else device, [])
  write device offset value :=
    (if offset = 0 then { device with counter := value.toNat } else device, [])
  step device cycles :=
    if device.counter = 0 then (device, [])
    else if device.counter ≤ cycles then
      ({ device with counter := 0, status := 0x80 }, [.raise device.line])
    else ({ device with counter := device.counter - cycles }, [])
  restore? _ _ := none

inductive Stock where
  | unpopulated (device : Unpopulated)
  | probe (device : Probe)
  | registerBank (device : RegisterBank)
  | countdown (device : Countdown)
  deriving DecidableEq, Repr

instance : Peripheral Stock where
  name
    | .unpopulated device => Peripheral.name device
    | .probe device => Peripheral.name device
    | .registerBank device => Peripheral.name device
    | .countdown device => Peripheral.name device
  peek
    | .unpopulated device => Peripheral.peek device
    | .probe device => Peripheral.peek device
    | .registerBank device => Peripheral.peek device
    | .countdown device => Peripheral.peek device
  read stock offset :=
    match stock with
    | .unpopulated device => (Peripheral.read device offset).map id (Prod.map .unpopulated id)
    | .probe device => (Peripheral.read device offset).map id (Prod.map .probe id)
    | .registerBank device => (Peripheral.read device offset).map id (Prod.map .registerBank id)
    | .countdown device => (Peripheral.read device offset).map id (Prod.map .countdown id)
  write stock offset value :=
    match stock with
    | .unpopulated device => (Peripheral.write device offset value).map .unpopulated id
    | .probe device => (Peripheral.write device offset value).map .probe id
    | .registerBank device => (Peripheral.write device offset value).map .registerBank id
    | .countdown device => (Peripheral.write device offset value).map .countdown id
  step stock cycles :=
    match stock with
    | .unpopulated device => (Peripheral.step device cycles).map .unpopulated id
    | .probe device => (Peripheral.step device cycles).map .probe id
    | .registerBank device => (Peripheral.step device cycles).map .registerBank id
    | .countdown device => (Peripheral.step device cycles).map .countdown id
  restore? stock bytes :=
    match stock with
    | .unpopulated device => (Peripheral.restore? device bytes).map .unpopulated
    | .probe device => (Peripheral.restore? device bytes).map .probe
    | .registerBank device => (Peripheral.restore? device bytes).map .registerBank
    | .countdown device => (Peripheral.restore? device bytes).map .countdown

end EightBit
