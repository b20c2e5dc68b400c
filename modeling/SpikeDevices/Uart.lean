import SpikeDevices.Machine.Basic

/-!
# The SiFive UART

`sifive_uart_t` of sifive_uart.cc: a register window of 0x1000 bytes, a transmit path that
writes straight to the host terminal, and a software receive FIFO that `tick` fills from the
terminal. The class declaration and its inline helpers are in sifive_uart.h, which is not
among the sources; the register offsets, `UART_RX_FIFO_SIZE`, `read_rxfifo`, `read_ip` and
`update_interrupts` are modelled from the spec.

`rxRun_fifo` is the receive path's main property: whatever the terminal offers and however
ticks and RXFIFO reads interleave, the FIFO stays within its bound and the bytes read, then
the bytes still queued, are the bytes taken from the terminal, in order. `uartRun_rxRun`
carries it to every run of loads, stores and ticks, which moves the FIFO and the terminal's
input as the receive path of its ticks and accepted RXFIFO loads. Over the same runs the
interrupt line keeps agreeing with `(IE & IP) != 0` (`uartRun_consistent`), the terminal
receives the TXFIFO stores' bytes in order (`uartRun_output`), and the writable registers
read back what was stored (`sifiveUartStore_load`).
-/

namespace SpikeDevices.Uart

/-- Modelled from the spec: `UART_TXFIFO` (sifive_uart.h is not among the sources). -/
def uartTxfifo : U64 := 0x00
/-- Modelled from the spec: `UART_RXFIFO`. -/
def uartRxfifo : U64 := 0x04
/-- Modelled from the spec: `UART_TXCTRL`. -/
def uartTxctrl : U64 := 0x08
/-- Modelled from the spec: `UART_RXCTRL`. -/
def uartRxctrl : U64 := 0x0c
/-- Modelled from the spec: `UART_IE`. -/
def uartIe : U64 := 0x10
/-- Modelled from the spec: `UART_IP`. -/
def uartIp : U64 := 0x14
/-- Modelled from the spec: `UART_DIV`. -/
def uartDiv : U64 := 0x18

/-- Modelled from the spec: `UART_RX_FIFO_SIZE`, "bounded FIFO size 8". -/
def uartRxFifoSize : Nat := 8

/-- Modelled from the spec: the `IP.tx` bit. The spec does not place it; this is bit 0, the
SiFive UART's `txwm`. -/
def uartIpTx : U32 := 1

/-- Modelled from the spec: the `IP.rx` bit, bit 1 (the SiFive UART's `rxwm`). -/
def uartIpRx : U32 := 2

/-- `sifive_uart_t`: the stored registers, the software receive FIFO (front first) and the
level last driven on the interrupt line. -/
structure SifiveUart where
  txctrl : U32
  rxctrl : U32
  ie : U32
  div : U32
  rxFifo : List U8
  irqLevel : Bool

/-- The host terminal of `canonical_terminal_t`: what its non-blocking `read()` will return,
a byte or nothing (`-1`), and the bytes written to it so far. -/
structure Terminal where
  input : List (Option U8)
  output : List U8

/-- The UART with the terminal it is attached to. -/
structure UartMachine where
  uart : SifiveUart
  term : Terminal

/-- `canonical_terminal_t::read()`: the next result, or nothing once the input is exhausted. -/
def Terminal.read (t : Terminal) : Option U8 × Terminal :=
  match t.input with
  | [] => (none, t)
  | r :: rest => (r, { t with input := rest })

namespace SifiveUart

/-- Modelled from the spec: `read_ip`. `IP.tx` is always set, `IP.rx` while the FIFO holds
a byte. -/
def readIp (u : SifiveUart) : U32 := uartIpTx ||| (if u.rxFifo = [] then 0 else uartIpRx)

/-- Modelled from the spec: `update_interrupts`, which drives the line with
`(IE & IP) != 0`. -/
def updateInterrupts (u : SifiveUart) : SifiveUart := { u with irqLevel := u.ie &&& u.readIp != 0 }

/-- Modelled from the spec: `read_rxfifo`. It pops one byte, or returns `0x8000_0000` when the
FIFO is empty. -/
def readRxfifo (u : SifiveUart) : U32 × SifiveUart :=
  match u.rxFifo with
  | [] => (0x80000000, u)
  | b :: rest => (b.setWidth 32, updateInterrupts { u with rxFifo := rest })

/-- `memcpy(&reg, bytes, len)`: the low `len` bytes of a register replaced. -/
def setLowBytes (reg : U32) (bytes : List U8) (len : Nat) : U32 :=
  BitVec.ofNat 32 (decodeLE (bytes.take len ++ (encodeLE 4 reg.toNat).drop len))

end SifiveUart

open SifiveUart

/-- The register switch of `sifive_uart_t::load`: the value `r` read at `addr`; an offset
outside the map `abort()`s. -/
def loadRegister (m : UartMachine) (addr : U64) : Outcome (U32 × UartMachine) :=
  if addr = uartTxfifo then .done (0, m)
  else if addr = uartRxfifo then
    let (r, uart) := m.uart.readRxfifo
    .done (r, { m with uart })
  else if addr = uartTxctrl then .done (m.uart.txctrl, m)
  else if addr = uartRxctrl then .done (m.uart.rxctrl, m)
  else if addr = uartIe then .done (m.uart.ie, m)
  else if addr = uartIp then .done (m.uart.readIp, m)
  else if addr = uartDiv then .done (m.uart.div, m)
  else .fault

/-- `sifive_uart_t::load`: the first `len` bytes of `r`, or `none` where it returns `false`. -/
def sifiveUartLoad (m : UartMachine) (addr : U64) (len : Nat) :
    Outcome (Option (List U8) × UartMachine) :=
  if addr ≥ 0x1000 ∨ len > 4 then .done (none, m)
  else do
    let (r, m) ← loadRegister m addr
    pure (some ((encodeLE 4 r.toNat).take len), m)

/-- `sifive_uart_t::store`: `true` when the store is accepted; an offset outside the
writable registers `abort()`s. -/
def sifiveUartStore (m : UartMachine) (addr : U64) (len : Nat) (bytes : List U8) :
    Outcome (Bool × UartMachine) :=
  if addr ≥ 0x1000 ∨ len > 4 then .done (false, m)
  else if addr = uartTxfifo then
    .done (true, { m with term := { m.term with output := m.term.output ++ [bytes.headD 0] } })
  else if addr = uartTxctrl then
    .done (true, { m with uart := { m.uart with txctrl := setLowBytes m.uart.txctrl bytes len } })
  else if addr = uartRxctrl then
    .done (true, { m with uart := { m.uart with rxctrl := setLowBytes m.uart.rxctrl bytes len } })
  else if addr = uartIe then
    .done (true, { m with uart := updateInterrupts { m.uart with ie := setLowBytes m.uart.ie bytes len } })
  else if addr = uartDiv then
    .done (true, { m with uart := { m.uart with div := setLowBytes m.uart.div bytes len } })
  else .fault

/-- `sifive_uart_t::tick`: when the FIFO has room, poll the terminal and queue what it gives. -/
def sifiveUartTick (m : UartMachine) : UartMachine :=
  if m.uart.rxFifo.length ≥ uartRxFifoSize then m
  else
    match m.term.read with
    | (none, term) => { m with term }
    | (some b, term) => { uart := updateInterrupts { m.uart with rxFifo := m.uart.rxFifo ++ [b] }, term }

/-! ## The receive path -/

/-- An event of the receive path: a simulator tick, or a load that reaches the RXFIFO case
of the register switch. -/
inductive RxEvent where
  | tick
  | readRxfifo

/-- The events one after the other, with the value each RXFIFO read returned. -/
def rxRun : List RxEvent → UartMachine → UartMachine × List U32
  | [], m => (m, [])
  | .tick :: events, m => rxRun events (sifiveUartTick m)
  | .readRxfifo :: events, m =>
    let (r, uart) := m.uart.readRxfifo
    let (m', rs) := rxRun events { m with uart }
    (m', r :: rs)

/-! ## The receive FIFO along a run -/

/-- What one tick takes from the terminal: the result of one `read()` when the FIFO has room,
nothing when it is full. -/
theorem sifiveUartTick_fifo (m : UartMachine) :
    ∃ taken : List (Option U8), taken.length ≤ 1 ∧ m.term.input = taken ++ (sifiveUartTick m).term.input ∧
      (sifiveUartTick m).uart.rxFifo = m.uart.rxFifo ++ taken.filterMap id ∧
      (m.uart.rxFifo.length ≥ uartRxFifoSize → taken = []) := by
  unfold sifiveUartTick
  split
  · exact ⟨[], Nat.zero_le _, rfl, by simp, fun _ => rfl⟩
  · next hroom =>
    unfold Terminal.read
    rcases hin : m.term.input with _ | ⟨r, rest⟩
    · exact ⟨[], Nat.zero_le _, by simp [hin], by simp, fun h => absurd h hroom⟩
    · refine ⟨[r], Nat.le_refl _, ?_, ?_, fun h => absurd h hroom⟩ <;>
        cases r <;> simp [updateInterrupts]

theorem sifiveUartTick_length_le (m : UartMachine) (hm : m.uart.rxFifo.length ≤ uartRxFifoSize) :
    (sifiveUartTick m).uart.rxFifo.length ≤ uartRxFifoSize := by
  obtain ⟨taken, hlen, -, hfifo, hfull⟩ := sifiveUartTick_fifo m
  rw [hfifo, List.length_append]
  by_cases h : m.uart.rxFifo.length ≥ uartRxFifoSize
  · simp [hfull h]; omega
  · have := List.length_filterMap_le id taken
    omega

/-- A read of the empty FIFO returns `0x8000_0000` and changes nothing; otherwise it pops the
front byte, which it returns zero-extended. -/
theorem readRxfifo_eq (u : SifiveUart) :
    (u.rxFifo = [] ∧ u.readRxfifo = (0x80000000, u)) ∨
    ∃ b rest, u.rxFifo = b :: rest ∧ (u.readRxfifo).1 = b.setWidth 32 ∧
      (u.readRxfifo).2.rxFifo = rest := by
  unfold readRxfifo
  split
  · next h => exact .inl ⟨h, rfl⟩
  · next b rest h => exact .inr ⟨b, rest, h, rfl, rfl⟩

/-- A zero-extended byte is never the empty flag. -/
theorem setWidth_ne_empty (b : U8) : b.setWidth 32 ≠ 0x80000000 := by
  bv_omega

/-- However ticks and RXFIFO reads interleave and whatever the terminal offers, the FIFO stays
within `UART_RX_FIFO_SIZE`, and the bytes the non-empty reads returned followed by the bytes
still queued are exactly the bytes taken from the terminal, in order; nothing is taken when
the FIFO is full. -/
theorem rxRun_fifo (events : List RxEvent) (m : UartMachine)
    (hm : m.uart.rxFifo.length ≤ uartRxFifoSize) :
    (rxRun events m).1.uart.rxFifo.length ≤ uartRxFifoSize ∧
      ∃ taken : List (Option U8), m.term.input = taken ++ (rxRun events m).1.term.input ∧
        ((rxRun events m).2.filter (· != 0x80000000)).map (·.setWidth 8) ++
            (rxRun events m).1.uart.rxFifo = m.uart.rxFifo ++ taken.filterMap id := by
  induction events generalizing m with
  | nil => exact ⟨hm, [], by simp [rxRun], by simp [rxRun]⟩
  | cons event events ih =>
    cases event with
    | tick =>
      obtain ⟨hlen, rest, hin, hbytes⟩ := ih _ (sifiveUartTick_length_le m hm)
      obtain ⟨taken, -, htin, hfifo, -⟩ := sifiveUartTick_fifo m
      refine ⟨hlen, taken ++ rest, by rw [htin, hin, List.append_assoc]; rfl, ?_⟩
      simp only [rxRun] at hbytes ⊢
      rw [hbytes, hfifo, List.filterMap_append, List.append_assoc]
    | readRxfifo =>
      rcases readRxfifo_eq m.uart with ⟨-, hr⟩ | ⟨b, rest, hfifo, hr, hpop⟩
      · obtain ⟨hlen, taken, hin, hbytes⟩ := ih m hm
        refine ⟨by simp [rxRun, hr, hlen], taken, by simp [rxRun, hr, hin], ?_⟩
        simpa [rxRun, hr] using hbytes
      · have hm' : ({ m with uart := m.uart.readRxfifo.2 } : UartMachine).uart.rxFifo.length ≤
            uartRxFifoSize := by
          simp only [hpop]; rw [hfifo, List.length_cons] at hm; omega
        obtain ⟨hlen, taken, hin, hbytes⟩ := ih _ hm'
        refine ⟨hlen, taken, hin, ?_⟩
        simp only [rxRun, hpop] at hbytes ⊢
        rw [hfifo, hr, List.filter_cons_of_pos (by simpa using setWidth_ne_empty b)]
        rw [List.map_cons, List.cons_append, hbytes, List.cons_append]
        congr 1
        bv_omega

/-- A load of at most 4 bytes at RXFIFO is `read_rxfifo`: it returns the low `len` bytes of
the value read and leaves the UART as `read_rxfifo` does. -/
theorem sifiveUartLoad_rxfifo (m : UartMachine) {len : Nat} (hlen : len ≤ 4) :
    sifiveUartLoad m uartRxfifo len =
      .done (some ((encodeLE 4 m.uart.readRxfifo.1.toNat).take len),
        { m with uart := m.uart.readRxfifo.2 }) := by
  unfold sifiveUartLoad loadRegister
  rw [if_neg (by simp only [uartRxfifo]; bv_omega), if_neg (by decide), if_pos rfl]
  rfl

/-- The receive path of the UART never loses a byte: along any interleaving of ticks and
RXFIFO loads the FIFO holds at most `UART_RX_FIFO_SIZE` bytes, the bytes returned by the
non-empty reads followed by the bytes still queued are the bytes taken from the terminal in
order, and a read of the empty FIFO returns `0x8000_0000`. -/
theorem rxRun_no_byte_lost (events : List RxEvent) (m : UartMachine)
    (hm : m.uart.rxFifo.length ≤ uartRxFifoSize) :
    ((rxRun events m).1.uart.rxFifo.length ≤ uartRxFifoSize ∧
      ∃ taken : List (Option U8), m.term.input = taken ++ (rxRun events m).1.term.input ∧
        ((rxRun events m).2.filter (· != 0x80000000)).map (·.setWidth 8) ++
            (rxRun events m).1.uart.rxFifo = m.uart.rxFifo ++ taken.filterMap id) ∧
    (∀ u : SifiveUart, u.rxFifo = [] → u.readRxfifo = (0x80000000, u)) ∧
    (∀ (m : UartMachine) (len : Nat), len ≤ 4 →
      sifiveUartLoad m uartRxfifo len =
        .done (some ((encodeLE 4 m.uart.readRxfifo.1.toNat).take len),
          { m with uart := m.uart.readRxfifo.2 })) :=
  ⟨rxRun_fifo events m hm, fun u hu => by simp [readRxfifo, hu],
    fun m _ hlen => sifiveUartLoad_rxfifo m hlen⟩

/-- A terminal offering ten bytes, `'A'` to `'J'`, to an idle UART. -/
def burstMachine : UartMachine :=
  ⟨⟨0, 0, 0, 0, [], false⟩, ⟨(List.range 10).map fun i => some (BitVec.ofNat 8 (0x41 + i)), []⟩⟩

/-- Nine ticks (the ninth finds the FIFO full and leaves the terminal alone), two reads,
three ticks (the third finds the terminal empty), then eleven reads. -/
def burstEvents : List RxEvent :=
  List.replicate 9 .tick ++ List.replicate 2 .readRxfifo ++ List.replicate 3 .tick ++
    List.replicate 11 .readRxfifo

/-- Along that run all ten bytes are read back in order, the last three reads find the FIFO
empty, and nothing is left in it. -/
theorem rxRun_no_byte_lost_burst :
    burstMachine.uart.rxFifo.length ≤ uartRxFifoSize ∧
    (((rxRun burstEvents burstMachine).1.uart.rxFifo.length ≤ uartRxFifoSize ∧
      ∃ taken : List (Option U8), burstMachine.term.input =
          taken ++ (rxRun burstEvents burstMachine).1.term.input ∧
        ((rxRun burstEvents burstMachine).2.filter (· != 0x80000000)).map (·.setWidth 8) ++
            (rxRun burstEvents burstMachine).1.uart.rxFifo = burstMachine.uart.rxFifo ++ taken.filterMap id) ∧
    (∀ u : SifiveUart, u.rxFifo = [] → u.readRxfifo = (0x80000000, u)) ∧
    (∀ (m : UartMachine) (len : Nat), len ≤ 4 →
      sifiveUartLoad m uartRxfifo len =
        .done (some ((encodeLE 4 m.uart.readRxfifo.1.toNat).take len),
          { m with uart := m.uart.readRxfifo.2 }))) ∧
    (rxRun burstEvents burstMachine).2 =
      [0x41, 0x42, 0x43, 0x44, 0x45, 0x46, 0x47, 0x48, 0x49, 0x4A, 0x80000000, 0x80000000, 0x80000000] ∧
    (rxRun burstEvents burstMachine).1.uart.rxFifo = [] :=
  ⟨by decide, rxRun_no_byte_lost burstEvents burstMachine (by decide), by decide, by decide⟩

/-! ## Whole runs -/

/-- An access of the simulator to the UART: a load or a store of `len` bytes at offset `addr`
of its window, or a tick. -/
inductive UartOp where
  | load (addr : U64) (len : Nat)
  | store (addr : U64) (len : Nat) (bytes : List U8)
  | tick

/-- One access; the bytes of a load and the result of a store go back to the processor. -/
def uartStep : UartOp → UartMachine → Outcome UartMachine
  | .load addr len, m => do
    let (_, m) ← sifiveUartLoad m addr len
    pure m
  | .store addr len bytes, m => do
    let (_, m) ← sifiveUartStore m addr len bytes
    pure m
  | .tick, m => .done (sifiveUartTick m)

/-- The accesses one after the other; an `abort()` ends the run. -/
def uartRun : List UartOp → UartMachine → Outcome UartMachine
  | [], m => .done m
  | op :: ops, m => uartStep op m >>= uartRun ops

/-- The byte an access writes to the terminal: the first byte of a store that
`sifive_uart_t::store` accepts at TXFIFO. -/
def UartOp.txByte : UartOp → Option U8
  | .store addr len bytes => if addr = uartTxfifo ∧ len ≤ 4 then some (bytes.headD 0) else none
  | _ => none

/-- The line is driven with `(IE & IP) != 0` and the FIFO holds at most `UART_RX_FIFO_SIZE`
bytes. -/
structure SifiveUart.Consistent (u : SifiveUart) : Prop where
  irq : u.irqLevel = (u.ie &&& u.readIp != 0)
  fifo : u.rxFifo.length ≤ uartRxFifoSize

theorem SifiveUart.Consistent.updateInterrupts {u : SifiveUart}
    (h : u.rxFifo.length ≤ uartRxFifoSize) : (updateInterrupts u).Consistent :=
  ⟨rfl, h⟩

theorem SifiveUart.Consistent.readRxfifo {u : SifiveUart} (h : u.Consistent) :
    u.readRxfifo.2.Consistent := by
  unfold SifiveUart.readRxfifo
  split
  · exact h
  · next b rest hfifo =>
    refine Consistent.updateInterrupts ?_
    have := h.fifo
    rw [hfifo, List.length_cons] at this
    exact Nat.le_of_succ_le this

/-- The register switch changes the machine only at RXFIFO, where it pops the FIFO. -/
theorem loadRegister_state {m m' : UartMachine} {addr : U64} {r : U32}
    (h : loadRegister m addr = .done (r, m')) :
    m' = if addr = uartRxfifo then { m with uart := m.uart.readRxfifo.2 } else m := by
  by_cases hrx : addr = uartRxfifo
  · rw [if_pos hrx]
    rw [hrx, loadRegister, if_neg (by decide), if_pos rfl] at h
    cases h
    rfl
  rw [if_neg hrx]
  unfold loadRegister at h
  repeat' (rw [ite_eq_iff] at h; rcases h with ⟨hc, h⟩ | ⟨-, h⟩)
  pick_goal 2
  · exact absurd hc hrx
  all_goals cases h
  all_goals rfl

/-- `sifive_uart_t::load` changes the UART exactly where it accepts an RXFIFO load, also
one of 0 bytes, which pops a byte and returns none of it. -/
theorem sifiveUartLoad_state {m m' : UartMachine} {addr : U64} {len : Nat}
    {r : Option (List U8)} (h : sifiveUartLoad m addr len = .done (r, m')) :
    m' = if addr = uartRxfifo ∧ len ≤ 4 then { m with uart := m.uart.readRxfifo.2 } else m := by
  unfold sifiveUartLoad at h
  split at h
  · next hout =>
    cases h
    rw [if_neg fun ⟨hrx, hl⟩ => hout.elim (fun h1 => absurd (hrx ▸ h1) (by decide)) (by omega)]
  · next hin =>
    obtain ⟨⟨_, m1⟩, h1, h⟩ := Outcome.bind_eq_done.mp h
    cases h
    rw [loadRegister_state h1]
    by_cases hrx : addr = uartRxfifo
    · rw [if_pos hrx, if_pos ⟨hrx, by omega⟩]
    · rw [if_neg hrx, if_neg fun hc => hrx hc.1]

/-- A store writes its first byte to the terminal exactly when it is a TXFIFO store of at
most 4 bytes. -/
theorem sifiveUartStore_term {m m' : UartMachine} {addr : U64} {len : Nat} {bytes : List U8}
    {r : Bool} (h : sifiveUartStore m addr len bytes = .done (r, m')) :
    m'.term = { m.term with output := m.term.output ++ (UartOp.store addr len bytes).txByte.toList } := by
  unfold sifiveUartStore at h
  simp only [UartOp.txByte]
  rw [ite_eq_iff] at h
  rcases h with ⟨hout, h⟩ | ⟨hin, h⟩
  · cases h
    rw [if_neg fun ⟨htx, hl⟩ => hout.elim (fun h1 => absurd (htx ▸ h1) (by decide)) (by omega)]
    simp
  rw [ite_eq_iff] at h
  rcases h with ⟨htx, h⟩ | ⟨htx, h⟩
  · cases h; rw [if_pos ⟨htx, by omega⟩]; rfl
  rw [if_neg fun hc => htx hc.1]
  repeat' (rw [ite_eq_iff] at h; rcases h with ⟨-, h⟩ | ⟨-, h⟩)
  all_goals cases h
  all_goals simp

/-- A store keeps the UART consistent: only an IE store changes `ie`, and it drives the line
again. -/
theorem sifiveUartStore_consistent {m m' : UartMachine} {addr : U64} {len : Nat}
    {bytes : List U8} {r : Bool} (hm : m.uart.Consistent)
    (h : sifiveUartStore m addr len bytes = .done (r, m')) : m'.uart.Consistent := by
  unfold sifiveUartStore at h
  repeat' (rw [ite_eq_iff] at h; rcases h with ⟨-, h⟩ | ⟨-, h⟩)
  all_goals cases h
  all_goals first | exact hm | exact ⟨hm.irq, hm.fifo⟩ | exact Consistent.updateInterrupts hm.fifo

theorem sifiveUartTick_consistent {m : UartMachine} (hm : m.uart.Consistent) :
    (sifiveUartTick m).uart.Consistent := by
  unfold sifiveUartTick
  split
  · exact hm
  · next hroom =>
    split
    · exact hm
    · exact Consistent.updateInterrupts (by simp only [List.length_append, List.length_singleton]; omega)

theorem Terminal.read_output (t : Terminal) : t.read.2.output = t.output := by
  unfold Terminal.read
  split <;> rfl

theorem sifiveUartTick_output (m : UartMachine) :
    (sifiveUartTick m).term.output = m.term.output := by
  have hread := Terminal.read_output m.term
  unfold sifiveUartTick
  split
  · rfl
  · rcases hr : m.term.read with ⟨_ | b, term⟩ <;> rw [hr] at hread <;> exact hread

theorem uartStep_consistent {op : UartOp} {m m' : UartMachine} (hm : m.uart.Consistent)
    (h : uartStep op m = .done m') : m'.uart.Consistent := by
  cases op with
  | load addr len =>
    obtain ⟨⟨_, m1⟩, h1, h⟩ := Outcome.bind_eq_done.mp h
    cases h
    rw [sifiveUartLoad_state h1]
    split
    · exact hm.readRxfifo
    · exact hm
  | store addr len bytes =>
    obtain ⟨⟨_, m1⟩, h1, h⟩ := Outcome.bind_eq_done.mp h
    cases h
    exact sifiveUartStore_consistent hm h1
  | tick => cases h; exact sifiveUartTick_consistent hm

theorem uartStep_output {op : UartOp} {m m' : UartMachine} (h : uartStep op m = .done m') :
    m'.term.output = m.term.output ++ op.txByte.toList := by
  cases op with
  | load addr len =>
    obtain ⟨⟨_, m1⟩, h1, h⟩ := Outcome.bind_eq_done.mp h
    cases h
    rw [sifiveUartLoad_state h1]
    split <;> simp [UartOp.txByte]
  | store addr len bytes =>
    obtain ⟨⟨_, m1⟩, h1, h⟩ := Outcome.bind_eq_done.mp h
    cases h
    rw [sifiveUartStore_term h1]
  | tick => cases h; simp [UartOp.txByte, sifiveUartTick_output]

/-- From a state whose interrupt line agrees with `(IE & IP) != 0` and whose FIFO is within
its bound, every run of loads, stores and ticks that does not abort keeps both: every path
that changes IE or the FIFO drives the line again. -/
theorem uartRun_consistent : ∀ (ops : List UartOp) {m m' : UartMachine}, m.uart.Consistent →
    uartRun ops m = .done m' → m'.uart.Consistent
  | [], _, _, hm, h => by cases h; exact hm
  | op :: ops, _, _, hm, h => by
    obtain ⟨m1, h1, h⟩ := Outcome.bind_eq_done.mp h
    exact uartRun_consistent ops (uartStep_consistent hm h1) h

theorem uartRun_consistent_ie :
    (⟨⟨0, 0, 0, 0, [], false⟩, ⟨[some 65], []⟩⟩ : UartMachine).uart.Consistent ∧
    uartRun [.tick, .store uartIe 4 [2, 0, 0, 0]] ⟨⟨0, 0, 0, 0, [], false⟩, ⟨[some 65], []⟩⟩ =
      .done ⟨⟨0, 0, 2, 0, [65], true⟩, ⟨[], []⟩⟩ ∧
    (⟨⟨0, 0, 2, 0, [65], true⟩, ⟨[], []⟩⟩ : UartMachine).uart.Consistent :=
  ⟨⟨by decide, by decide⟩, rfl,
    @uartRun_consistent [.tick, .store uartIe 4 [2, 0, 0, 0]] ⟨⟨0, 0, 0, 0, [], false⟩, ⟨[some 65], []⟩⟩
      ⟨⟨0, 0, 2, 0, [65], true⟩, ⟨[], []⟩⟩ ⟨by decide, by decide⟩ rfl⟩

/-- Along every run that does not abort, the terminal receives exactly the first byte of each
store of at most 4 bytes to TXFIFO, in the order of the stores; loads, ticks and the other
stores write nothing to it. -/
theorem uartRun_output : ∀ (ops : List UartOp) {m m' : UartMachine},
    uartRun ops m = .done m' → m'.term.output = m.term.output ++ ops.filterMap UartOp.txByte
  | [], _, _, h => by cases h; simp
  | op :: ops, _, _, h => by
    obtain ⟨m1, h1, h⟩ := Outcome.bind_eq_done.mp h
    rw [uartRun_output ops h, uartStep_output h1, List.filterMap_cons]
    cases op.txByte <;> simp

theorem uartRun_output_hello :
    uartRun [.store uartTxfifo 1 [72], .tick, .store uartTxfifo 4 [105, 0, 0, 0]]
        ⟨⟨0, 0, 0, 0, [], false⟩, ⟨[], []⟩⟩ = .done ⟨⟨0, 0, 0, 0, [], false⟩, ⟨[], [72, 105]⟩⟩ ∧
    (⟨⟨0, 0, 0, 0, [], false⟩, ⟨[], [72, 105]⟩⟩ : UartMachine).term.output =
      [] ++ [UartOp.store uartTxfifo 1 [72], .tick, .store uartTxfifo 4 [105, 0, 0, 0]].filterMap
        UartOp.txByte :=
  ⟨rfl, @uartRun_output [.store uartTxfifo 1 [72], .tick, .store uartTxfifo 4 [105, 0, 0, 0]]
    ⟨⟨0, 0, 0, 0, [], false⟩, ⟨[], []⟩⟩ ⟨⟨0, 0, 0, 0, [], false⟩, ⟨[], [72, 105]⟩⟩ rfl⟩

/-! ## The receive path inside whole runs -/

/-- The receive-path event an access is: a tick, or a load that `sifive_uart_t::load` accepts
at RXFIFO; stores and the other loads are none. -/
def UartOp.rxEvent : UartOp → Option RxEvent
  | .load addr len => if addr = uartRxfifo ∧ len ≤ 4 then some .readRxfifo else none
  | .store .. => none
  | .tick => some .tick

/-- What the receive path reads and writes of a machine: the FIFO and the terminal's pending
input. -/
def UartMachine.rxView (m : UartMachine) : List U8 × List (Option U8) :=
  (m.uart.rxFifo, m.term.input)

theorem rxRun_readRxfifo (events : List RxEvent) (m : UartMachine) :
    rxRun (.readRxfifo :: events) m =
      ((rxRun events { m with uart := m.uart.readRxfifo.2 }).1,
        m.uart.readRxfifo.1 :: (rxRun events { m with uart := m.uart.readRxfifo.2 }).2) := rfl

theorem rxRun_append (e₁ e₂ : List RxEvent) (m : UartMachine) :
    (rxRun (e₁ ++ e₂) m).1 = (rxRun e₂ (rxRun e₁ m).1).1 := by
  induction e₁ generalizing m with
  | nil => rfl
  | cons e e₁ ih =>
    cases e with
    | tick => exact ih (sifiveUartTick m)
    | readRxfifo => rw [List.cons_append, rxRun_readRxfifo, rxRun_readRxfifo]; exact ih _

theorem readRxfifo_congr {u₁ u₂ : SifiveUart} (h : u₁.rxFifo = u₂.rxFifo) :
    u₁.readRxfifo.1 = u₂.readRxfifo.1 ∧ u₁.readRxfifo.2.rxFifo = u₂.readRxfifo.2.rxFifo := by
  unfold readRxfifo
  rw [h]
  split
  · exact ⟨rfl, h⟩
  · exact ⟨rfl, rfl⟩

/-- What a tick does to the receive path: nothing when the FIFO is full, else it takes the
terminal's next result and queues it if it is a byte. -/
theorem sifiveUartTick_rxView_eq (m : UartMachine) :
    (sifiveUartTick m).rxView =
      if m.uart.rxFifo.length ≥ uartRxFifoSize then m.rxView
      else match m.term.input with
        | [] => m.rxView
        | none :: rest => (m.uart.rxFifo, rest)
        | some b :: rest => (m.uart.rxFifo ++ [b], rest) := by
  unfold sifiveUartTick
  split
  · rfl
  unfold Terminal.read
  rcases hin : m.term.input with _ | ⟨_ | b, rest⟩ <;> simp only [hin] <;> rfl

theorem sifiveUartTick_rxView {m₁ m₂ : UartMachine} (h : m₁.rxView = m₂.rxView) :
    (sifiveUartTick m₁).rxView = (sifiveUartTick m₂).rxView := by
  obtain ⟨hf, hi⟩ := Prod.mk.inj h
  rw [sifiveUartTick_rxView_eq, sifiveUartTick_rxView_eq, hf, hi, h]

/-- The receive path depends on nothing but the FIFO and the terminal's input. -/
theorem rxRun_congr (events : List RxEvent) {m₁ m₂ : UartMachine} (h : m₁.rxView = m₂.rxView) :
    (rxRun events m₁).1.rxView = (rxRun events m₂).1.rxView ∧
      (rxRun events m₁).2 = (rxRun events m₂).2 := by
  induction events generalizing m₁ m₂ with
  | nil => exact ⟨h, rfl⟩
  | cons e events ih =>
    cases e with
    | tick => exact ih (sifiveUartTick_rxView h)
    | readRxfifo =>
      obtain ⟨hr, hf⟩ := readRxfifo_congr (Prod.mk.inj h).1
      have hv : ({ m₁ with uart := m₁.uart.readRxfifo.2 } : UartMachine).rxView =
          ({ m₂ with uart := m₂.uart.readRxfifo.2 } : UartMachine).rxView :=
        Prod.ext hf (Prod.mk.inj h).2
      obtain ⟨ih₁, ih₂⟩ := ih hv
      rw [rxRun_readRxfifo, rxRun_readRxfifo, ih₂, hr]
      exact ⟨ih₁, rfl⟩

/-- A store leaves the FIFO and the terminal's input alone. -/
theorem sifiveUartStore_rxView {m m' : UartMachine} {addr : U64} {len : Nat} {bytes : List U8}
    {r : Bool} (h : sifiveUartStore m addr len bytes = .done (r, m')) : m'.rxView = m.rxView := by
  unfold sifiveUartStore at h
  repeat' (rw [ite_eq_iff] at h; rcases h with ⟨-, h⟩ | ⟨-, h⟩)
  all_goals cases h
  all_goals rfl

/-- One access does to the receive path what its receive-path event does. -/
theorem uartStep_rxView {op : UartOp} {m m' : UartMachine} (h : uartStep op m = .done m') :
    m'.rxView = (rxRun op.rxEvent.toList m).1.rxView := by
  cases op with
  | load addr len =>
    obtain ⟨⟨_, m1⟩, h1, h⟩ := Outcome.bind_eq_done.mp h
    cases h
    rw [sifiveUartLoad_state h1, UartOp.rxEvent]
    split <;> rfl
  | store addr len bytes =>
    obtain ⟨⟨_, m1⟩, h1, h⟩ := Outcome.bind_eq_done.mp h
    cases h
    exact sifiveUartStore_rxView h1
  | tick => cases h; rfl

/-- Every run of loads, stores and ticks that does not abort moves the receive FIFO and the
terminal's input exactly as the receive-path run of its ticks and its accepted RXFIFO loads:
stores, loads of other registers and refused loads never touch them. -/
theorem uartRun_rxRun : ∀ (ops : List UartOp) {m m' : UartMachine}, uartRun ops m = .done m' →
    m'.uart.rxFifo = (rxRun (ops.filterMap UartOp.rxEvent) m).1.uart.rxFifo ∧
      m'.term.input = (rxRun (ops.filterMap UartOp.rxEvent) m).1.term.input
  | [], _, _, h => by cases h; exact ⟨rfl, rfl⟩
  | op :: ops, m, _, h => by
    obtain ⟨m1, h1, h⟩ := Outcome.bind_eq_done.mp h
    have hv : m1.rxView = (rxRun op.rxEvent.toList m).1.rxView := uartStep_rxView h1
    have hfm : (op :: ops).filterMap UartOp.rxEvent = op.rxEvent.toList ++ ops.filterMap UartOp.rxEvent := by
      rw [List.filterMap_cons]; cases op.rxEvent <;> rfl
    rw [hfm, rxRun_append]
    obtain ⟨hf, hi⟩ := uartRun_rxRun ops h
    rw [hf, hi]
    exact Prod.mk.inj (rxRun_congr _ hv).1

theorem uartRun_rxRun_ab :
    uartRun [.tick, .store uartIe 4 [2, 0, 0, 0], .load uartRxfifo 4, .load uartDiv 4]
        ⟨⟨0, 0, 0, 0, [], false⟩, ⟨[some 65, some 66], []⟩⟩ =
      .done ⟨⟨0, 0, 2, 0, [], false⟩, ⟨[some 66], []⟩⟩ ∧
    ((⟨⟨0, 0, 2, 0, [], false⟩, ⟨[some 66], []⟩⟩ : UartMachine).uart.rxFifo =
        (rxRun ([UartOp.tick, .store uartIe 4 [2, 0, 0, 0], .load uartRxfifo 4,
          .load uartDiv 4].filterMap UartOp.rxEvent)
          ⟨⟨0, 0, 0, 0, [], false⟩, ⟨[some 65, some 66], []⟩⟩).1.uart.rxFifo ∧
      (⟨⟨0, 0, 2, 0, [], false⟩, ⟨[some 66], []⟩⟩ : UartMachine).term.input =
        (rxRun ([UartOp.tick, .store uartIe 4 [2, 0, 0, 0], .load uartRxfifo 4,
          .load uartDiv 4].filterMap UartOp.rxEvent)
          ⟨⟨0, 0, 0, 0, [], false⟩, ⟨[some 65, some 66], []⟩⟩).1.term.input) :=
  ⟨rfl, @uartRun_rxRun [.tick, .store uartIe 4 [2, 0, 0, 0], .load uartRxfifo 4, .load uartDiv 4]
    ⟨⟨0, 0, 0, 0, [], false⟩, ⟨[some 65, some 66], []⟩⟩ ⟨⟨0, 0, 2, 0, [], false⟩, ⟨[some 66], []⟩⟩
    rfl⟩

/-! ## The writable registers -/

/-- `memcpy(&reg, bytes, len)` seen as bytes: the first `len` of `bytes` over the old ones. -/
theorem encodeLE_setLowBytes (reg : U32) {bytes : List U8} {len : Nat} (hlen : len ≤ 4)
    (hb : len ≤ bytes.length) :
    encodeLE 4 (setLowBytes reg bytes len).toNat = bytes.take len ++ (encodeLE 4 reg.toNat).drop len := by
  have hl : (bytes.take len ++ (encodeLE 4 reg.toNat).drop len).length = 4 := by
    simp only [List.length_append, List.length_take, List.length_drop, length_encodeLE]
    omega
  have hlt : decodeLE (bytes.take len ++ (encodeLE 4 reg.toNat).drop len) < 2 ^ 32 :=
    (decodeLE_lt _).trans_eq (by rw [hl]; rfl)
  rw [setLowBytes, BitVec.toNat_ofNat, Nat.mod_eq_of_lt hlt, encodeLE_decodeLE_of_length hl]

/-- A load that `sifive_uart_t::load` accepts returns the low `len` bytes of the register
the switch reads. -/
theorem sifiveUartLoad_accepted {m m' : UartMachine} {addr : U64} {len : Nat} {r : U32}
    (ha : addr < 0x1000) (hlen : len ≤ 4) (h : loadRegister m addr = .done (r, m')) :
    sifiveUartLoad m addr len = .done (some ((encodeLE 4 r.toNat).take len), m') := by
  unfold sifiveUartLoad
  rw [if_neg (not_or.mpr ⟨BitVec.not_le.mpr ha, by omega⟩), h]
  rfl

/-- The four writable registers read back what was stored: a store of `len ≤ 4` bytes at
TXCTRL, RXCTRL, IE or DIV is accepted, and every later load of the register returns the
stored bytes over the bytes the register held, cut to the load's width. -/
theorem sifiveUartStore_load {m : UartMachine} {addr : U64}
    (haddr : addr = uartTxctrl ∨ addr = uartRxctrl ∨ addr = uartIe ∨ addr = uartDiv)
    {len : Nat} (hlen : len ≤ 4) {bytes : List U8} (hb : len ≤ bytes.length) :
    ∃ old m', sifiveUartLoad m addr 4 = .done (some old, m) ∧
      sifiveUartStore m addr len bytes = .done (true, m') ∧
      ∀ len' ≤ 4, sifiveUartLoad m' addr len' =
        .done (some ((bytes.take len ++ old.drop len).take len'), m') := by
  have ha : addr < 0x1000 := by rcases haddr with rfl | rfl | rfl | rfl <;> decide
  obtain ⟨r, m', hr, hs, hr'⟩ : ∃ r m', loadRegister m addr = .done (r, m) ∧
      sifiveUartStore m addr len bytes = .done (true, m') ∧
      loadRegister m' addr = .done (setLowBytes r bytes len, m') := by
    unfold sifiveUartStore
    rw [if_neg (not_or.mpr ⟨BitVec.not_le.mpr ha, by omega⟩)]
    rcases haddr with rfl | rfl | rfl | rfl <;> exact ⟨_, _, rfl, rfl, rfl⟩
  refine ⟨_, m', sifiveUartLoad_accepted ha (le_refl 4) hr, hs, fun len' hl' => ?_⟩
  rw [sifiveUartLoad_accepted ha hl' hr', encodeLE_setLowBytes _ hlen hb,
    List.take_of_length_le (le_of_eq (length_encodeLE 4 r.toNat))]

theorem sifiveUartStore_load_ie :
    (uartIe = uartTxctrl ∨ uartIe = uartRxctrl ∨ uartIe = uartIe ∨ uartIe = uartDiv) ∧ 2 ≤ 4 ∧
    2 ≤ ([5, 0] : List U8).length ∧
    ∃ old m', sifiveUartLoad ⟨⟨0, 0, 0x0302, 0, [], false⟩, ⟨[], []⟩⟩ uartIe 4 =
        .done (some old, ⟨⟨0, 0, 0x0302, 0, [], false⟩, ⟨[], []⟩⟩) ∧
      sifiveUartStore ⟨⟨0, 0, 0x0302, 0, [], false⟩, ⟨[], []⟩⟩ uartIe 2 [5, 0] = .done (true, m') ∧
      ∀ len' ≤ 4, sifiveUartLoad m' uartIe len' =
        .done (some ((([5, 0] : List U8).take 2 ++ old.drop 2).take len'), m') :=
  ⟨.inr (.inr (.inl rfl)), by decide, by decide,
    sifiveUartStore_load (.inr (.inr (.inl rfl))) (by decide) (by decide)⟩

end SpikeDevices.Uart
