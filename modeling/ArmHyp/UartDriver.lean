import Mathlib.Logic.Function.Iterate
import ArmHyp.HvfHost

/-!
# The UART driver (`uart.c`)

`uart_init` and `uart_putc` as the accesses they make, over any device with
the PL011's registers. On the hardware the driver runs beside the line, which
takes bytes off the transmit FIFO in its own time; `console_loses_nothing`
says that, however the two interleave, no byte is lost, doubled or out of
order, and that the driver finishes if the line keeps going. On the launcher's
emulation `UARTFR` never says full, and a byte takes two accesses
(`launcher_console`).

The rest of the development writes to the console in one step
(`Machine.uartPutBytes`); what it appends are the bytes sent here.
-/

namespace ArmHyp

namespace Uart

/-! ## The driver -/

def uartdr : BitVec 32 := 0x000
def uartfr : BitVec 32 := 0x018
def uartibrd : BitVec 32 := 0x024
def uartfbrd : BitVec 32 := 0x028
def uartlcrh : BitVec 32 := 0x02C
def uartcr : BitVec 32 := 0x030
def uartimsc : BitVec 32 := 0x038
def uarticr : BitVec 32 := 0x044

def frTxff : BitVec 32 := 1#32 <<< 5
def lcrhFen : BitVec 32 := 1#32 <<< 4
def lcrhWlen8 : BitVec 32 := 3#32 <<< 5
def crUarten : BitVec 32 := 1#32 <<< 0
def crTxe : BitVec 32 := 1#32 <<< 8
def crRxe : BitVec 32 := 1#32 <<< 9

/-- A device behind its registers. -/
structure Dev (σ : Type _) where
  read : BitVec 32 → σ → BitVec 32
  write : BitVec 32 → BitVec 32 → σ → σ

section Driver

variable {σ : Type _} (D : Dev σ)

def uartInit (s : σ) : σ :=
  let s := D.write uartcr 0 s
  let s := D.write uarticr 0x7ff s
  let s := D.write uartibrd 26 s
  let s := D.write uartfbrd 3 s
  let s := D.write uartlcrh (lcrhWlen8 ||| lcrhFen) s
  let s := D.write uartimsc 0 s
  D.write uartcr (crUarten ||| crTxe ||| crRxe) s

/-- The device, with EL2 in `uart_putc` for the first of the bytes it still
has to send. -/
structure Sending (σ : Type _) where
  dev : σ
  todo : List (BitVec 8)
  /-- `UARTFR` was read without `TXFF`, and the store to `UARTDR` is next. -/
  ready : Bool

/-- The next access. -/
def access (s : Sending σ) : Sending σ :=
  match s.todo with
  | [] => s
  | c :: cs =>
      if s.ready then ⟨D.write uartdr (c.setWidth 32) s.dev, cs, false⟩
      else { s with ready := D.read uartfr s.dev &&& frTxff = 0 }

end Driver

/-! ## The hardware -/

/-- The transmit side of a PL011. -/
structure Pl011Tx where
  cr : BitVec 32
  lcrH : BitVec 32
  fifo : List (BitVec 8)
  /-- What has gone out, and what was stored to a full FIFO. -/
  line : List (BitVec 8)
  lost : List (BitVec 8)

namespace Pl011Tx

/-- With FIFOs disabled there is a holding register. -/
def depth (p : Pl011Tx) : Nat := if p.lcrH &&& lcrhFen = 0 then 1 else 16

def enabled (p : Pl011Tx) : Bool := p.cr &&& crUarten ≠ 0 && p.cr &&& crTxe ≠ 0

def read (off : BitVec 32) (p : Pl011Tx) : BitVec 32 :=
  if off = uartfr then if p.depth ≤ p.fifo.length then frTxff else 0
  else if off = uartcr then p.cr
  else if off = uartlcrh then p.lcrH
  else 0

def write (off val : BitVec 32) (p : Pl011Tx) : Pl011Tx :=
  if off = uartdr then
    if p.depth ≤ p.fifo.length then { p with lost := p.lost ++ [val.setWidth 8] }
    else { p with fifo := p.fifo ++ [val.setWidth 8] }
  else if off = uartcr then { p with cr := val }
  else if off = uartlcrh then { p with lcrH := val }
  else p

/-- The line takes a byte. -/
def shift (p : Pl011Tx) : Pl011Tx :=
  if p.enabled then
    match p.fifo with
    | [] => p
    | c :: cs => { p with fifo := cs, line := p.line ++ [c] }
  else p

def dev : Dev Pl011Tx := ⟨read, write⟩

end Pl011Tx

inductive Event where
  | cpu
  | line
deriving DecidableEq

def step (s : Sending Pl011Tx) : Event → Sending Pl011Tx
  | .cpu => access Pl011Tx.dev s
  | .line => { s with dev := s.dev.shift }

def run (es : List Event) (s : Sending Pl011Tx) : Sending Pl011Tx := es.foldl step s

/-! ## Nothing is lost -/

/-- The FIFO is on and drained, and what the driver believes of it is so. -/
structure Going (s : Sending Pl011Tx) : Prop where
  enabled : s.dev.enabled = true
  depth : s.dev.depth = 16
  fits : s.dev.fifo.length ≤ 16
  room : s.ready = true → s.dev.fifo.length < 16

/-- All bytes, from the line back to the driver. -/
def Sending.stream (s : Sending Pl011Tx) : List (BitVec 8) := s.dev.line ++ s.dev.fifo ++ s.todo

section Steps

variable {s : Sending Pl011Tx}

theorem byte_back (c : BitVec 8) : (c.setWidth 32).setWidth 8 = c :=
  BitVec.setWidth_setWidth_of_le c (by decide)

namespace Pl011Tx

variable {p : Pl011Tx}

/-- A store to `UARTDR`. -/
theorem write_uartdr (hdepth : p.depth = 16) (c : BitVec 8) :
    p.write uartdr (c.setWidth 32)
      = if 16 ≤ p.fifo.length then { p with lost := p.lost ++ [c] }
        else { p with fifo := p.fifo ++ [c] } := by
  rw [write, if_pos rfl, hdepth, byte_back]

/-- A read of `UARTFR`, as `uart_putc` tests it. -/
theorem read_uartfr (hdepth : p.depth = 16) :
    decide (p.read uartfr &&& frTxff = 0) = decide (p.fifo.length < 16) := by
  rw [read, if_pos rfl, hdepth]
  by_cases hfull : 16 ≤ p.fifo.length
  · rw [if_pos hfull, decide_eq_false (Nat.not_lt.mpr hfull)]
    decide
  · rw [if_neg hfull, decide_eq_true (Nat.not_le.mp hfull)]
    decide

/-- What the line does. -/
theorem shift_eq (h : p.enabled = true) :
    p.shift = { p with fifo := p.fifo.tail, line := p.line ++ p.fifo.take 1 } := by
  rw [shift, if_pos h]
  cases hfifo : p.fifo with
  | nil =>
      obtain ⟨cr, lcrH, fifo, line, lost⟩ := p
      obtain rfl : fifo = [] := hfifo
      simp only [List.tail_nil, List.take_nil, List.append_nil]
  | cons c cs => rfl

/-- No byte moves but from the FIFO to the line. -/
theorem shift_sent (h : p.enabled = true) : p.shift.line ++ p.shift.fifo = p.line ++ p.fifo := by
  have hsplit : p.fifo.take 1 ++ p.fifo.tail = p.fifo := by
    rw [← List.drop_one]
    exact List.take_append_drop 1 p.fifo
  rw [shift_eq h]
  change p.line ++ p.fifo.take 1 ++ p.fifo.tail = p.line ++ p.fifo
  rw [List.append_assoc, hsplit]

theorem shift_length (h : p.enabled = true) : p.shift.fifo.length = p.fifo.length - 1 := by
  rw [shift_eq h]
  exact List.length_tail

end Pl011Tx

/-- What an access does. -/
theorem access_cases (h : Going s) :
    s.todo = [] ∧ access Pl011Tx.dev s = s
      ∨ (∃ c cs, s.todo = c :: cs ∧ s.ready = true
        ∧ access Pl011Tx.dev s = ⟨{ s.dev with fifo := s.dev.fifo ++ [c] }, cs, false⟩)
      ∨ s.todo ≠ [] ∧ s.ready = false
        ∧ access Pl011Tx.dev s = { s with ready := decide (s.dev.fifo.length < 16) } := by
  obtain ⟨dev, todo, ready⟩ := s
  cases todo with
  | nil => exact .inl ⟨rfl, rfl⟩
  | cons c cs =>
      cases ready with
      | true =>
          have hwrite := Pl011Tx.write_uartdr h.depth c
          rw [if_neg (Nat.not_le.mpr (h.room rfl))] at hwrite
          refine .inr (.inl ⟨c, cs, rfl, rfl, ?_⟩)
          exact congrArg (fun d => (⟨d, cs, false⟩ : Sending Pl011Tx)) hwrite
      | false =>
          have hread := Pl011Tx.read_uartfr h.depth
          refine .inr (.inr ⟨List.cons_ne_nil c cs, rfl, ?_⟩)
          exact congrArg (fun r => (⟨dev, c :: cs, r⟩ : Sending Pl011Tx)) hread

theorem Going.step (h : Going s) (e : Event) : Going (step s e) := by
  cases e with
  | cpu =>
      rw [Uart.step]
      rcases access_cases h with ⟨-, heq⟩ | ⟨c, cs, -, hready, heq⟩ | ⟨-, -, heq⟩
      · rw [heq]
        exact h
      · rw [heq]
        refine ⟨h.enabled, h.depth, ?_, nofun⟩
        rw [List.length_append]
        exact h.room hready
      · rw [heq]
        exact ⟨h.enabled, h.depth, h.fits, of_decide_eq_true⟩
  | line =>
      have hshift := Pl011Tx.shift_eq h.enabled
      have hlen : s.dev.shift.fifo.length ≤ s.dev.fifo.length := by
        rw [Pl011Tx.shift_length h.enabled]
        exact Nat.sub_le _ 1
      refine ⟨?_, ?_, Nat.le_trans hlen h.fits, fun hready => ?_⟩
      · rw [Uart.step, hshift]
        exact h.enabled
      · rw [Uart.step, hshift]
        exact h.depth
      · exact Nat.lt_of_le_of_lt hlen (h.room hready)

theorem step_stream (h : Going s) (e : Event) :
    (step s e).stream = s.stream ∧ (step s e).dev.lost = s.dev.lost := by
  cases e with
  | cpu =>
      rw [Uart.step]
      rcases access_cases h with ⟨-, heq⟩ | ⟨c, cs, htodo, -, heq⟩ | ⟨-, -, heq⟩
      · rw [heq]
        exact ⟨rfl, rfl⟩
      · rw [heq]
        refine ⟨?_, rfl⟩
        simp only [Sending.stream, htodo, List.append_assoc, List.singleton_append]
      · rw [heq]
        exact ⟨rfl, rfl⟩
  | line =>
      have hlost : s.dev.shift.lost = s.dev.lost := by
        rw [Pl011Tx.shift_eq h.enabled]
      exact ⟨congrArg (· ++ s.todo) (Pl011Tx.shift_sent h.enabled), hlost⟩

theorem run_cons (e : Event) (es : List Event) (s : Sending Pl011Tx) :
    run (e :: es) s = run es (step s e) := rfl

theorem run_append (es es' : List Event) (s : Sending Pl011Tx) :
    run (es ++ es') s = run es' (run es s) := List.foldl_append

theorem Going.run (h : Going s) (es : List Event) :
    Going (run es s) ∧ (Uart.run es s).stream = s.stream
      ∧ (Uart.run es s).dev.lost = s.dev.lost := by
  induction es generalizing s with
  | nil => exact ⟨h, rfl, rfl⟩
  | cons e es ih =>
      obtain ⟨hgoing, hstream, hlost⟩ := ih (h.step e)
      obtain ⟨hstream', hlost'⟩ := step_stream h e
      exact ⟨hgoing, hstream.trans hstream', hlost.trans hlost'⟩

/-! ## The driver finishes -/

theorem todo_step (h : Going s) (e : Event) : (step s e).todo.length ≤ s.todo.length := by
  cases e with
  | cpu =>
      rw [Uart.step]
      rcases access_cases h with ⟨-, heq⟩ | ⟨c, cs, htodo, -, heq⟩ | ⟨-, -, heq⟩
      · exact Nat.le_of_eq (congrArg (·.todo.length) heq)
      · rw [heq, htodo]
        exact Nat.le_succ _
      · exact Nat.le_of_eq (congrArg (·.todo.length) heq)
  | line => exact Nat.le_refl _

theorem todo_run (h : Going s) (es : List Event) : (run es s).todo.length ≤ s.todo.length := by
  induction es generalizing s with
  | nil => exact Nat.le_refl _
  | cons e es ih => exact Nat.le_trans (ih (h.step e)) (todo_step h e)

/-- The store is next: one access. -/
theorem stored_of_ready (h : Going s) (hready : s.ready = true) {es : List Event}
    (hcount : 1 ≤ es.count .cpu) : (run es s).todo.length ≤ s.todo.length - 1 := by
  induction es generalizing s with
  | nil => exact absurd hcount (by decide)
  | cons e es ih =>
      cases e with
      | line =>
          rw [List.count_cons_of_ne (by decide)] at hcount
          exact ih (h.step .line) hready hcount
      | cpu =>
          have hrest := todo_run (h.step .cpu) es
          rw [run_cons]
          rw [Uart.step] at hrest ⊢
          rcases access_cases h with ⟨htodo, heq⟩ | ⟨c, cs, htodo, -, heq⟩ | ⟨-, hnot, -⟩
          · rw [heq, htodo] at hrest
            rw [heq, htodo]
            exact hrest
          · rw [heq] at hrest
            rw [heq, htodo]
            exact hrest
          · rw [hready] at hnot
            cases hnot

/-- There is room: two accesses. -/
theorem stored_of_room (h : Going s) (hroom : s.dev.fifo.length < 16) {es : List Event}
    (hcount : 2 ≤ es.count .cpu) : (run es s).todo.length ≤ s.todo.length - 1 := by
  induction es generalizing s with
  | nil => exact absurd hcount (by decide)
  | cons e es ih =>
      cases e with
      | line =>
          rw [List.count_cons_of_ne (by decide)] at hcount
          have hshift : (step s .line).dev.fifo.length < 16 := by
            rw [Uart.step, Pl011Tx.shift_length h.enabled]
            omega
          exact ih (h.step .line) hshift hcount
      | cpu =>
          rw [List.count_cons_self] at hcount
          have hrest := todo_run (h.step .cpu) es
          have hnext := h.step .cpu
          rw [run_cons]
          rw [Uart.step] at hrest hnext ⊢
          rcases access_cases h with ⟨htodo, heq⟩ | ⟨c, cs, htodo, -, heq⟩ | ⟨-, -, heq⟩
          · rw [heq, htodo] at hrest
            rw [heq, htodo]
            exact hrest
          · rw [heq] at hrest
            rw [heq, htodo]
            exact hrest
          · rw [heq] at hnext ⊢
            exact stored_of_ready hnext (decide_eq_true hroom) (by omega)

/-- `n` times over, the line takes a byte and then EL2 gets two accesses in. -/
def Rounds : Nat → List Event → Prop
  | 0, _ => True
  | n + 1, es => ∃ pre post rest, es = pre ++ (.line :: post ++ rest) ∧ 2 ≤ post.count .cpu
      ∧ Rounds n rest

theorem todo_rounds (h : Going s) {n : Nat} {es : List Event} (hes : Rounds n es) :
    (run es s).todo.length ≤ s.todo.length - n := by
  induction n generalizing s es with
  | zero => exact todo_run h es
  | succ n ih =>
      obtain ⟨pre, post, rest, rfl, hcount, hrest⟩ := hes
      have hpre := (h.run pre).1
      have hroom : (step (run pre s) .line).dev.fifo.length < 16 := by
        have hfits := hpre.fits
        rw [Uart.step, Pl011Tx.shift_length hpre.enabled]
        omega
      have hstored := stored_of_room (hpre.step .line) hroom hcount
      have hleft := ih ((hpre.step .line).run post).1 hrest
      have hkeep : (step (run pre s) .line).todo = (run pre s).todo := rfl
      have hfirst := todo_run h pre
      rw [run_append, List.cons_append, run_cons, run_append]
      rw [hkeep] at hstored
      omega

end Steps

/-- What `uart_init` leaves of a PL011 with nothing in its FIFO. -/
theorem uartInit_going (p : Pl011Tx) (hp : p.fifo = []) (bytes : List (BitVec 8)) :
    Going ⟨uartInit Pl011Tx.dev p, bytes, false⟩
      ∧ uartInit Pl011Tx.dev p = { p with cr := 0x301, lcrH := 0x70 } := by
  have hinit : uartInit Pl011Tx.dev p = { p with cr := 0x301, lcrH := 0x70 } := rfl
  refine ⟨?_, hinit⟩
  rw [hinit]
  refine ⟨?_, ?_, ?_, nofun⟩
  · change ((0x301#32 &&& crUarten ≠ 0 : Bool) && (0x301#32 &&& crTxe ≠ 0 : Bool)) = true
    decide
  · change (if 0x70#32 &&& lcrhFen = 0 then 1 else 16) = 16
    decide
  · rw [hp]
    decide

/-- **The console loses nothing.** After `uart_init` on a PL011 whose FIFO is
empty, as it is after reset, however the accesses with which EL2 sends `bytes`
and the line's own progress interleave: no byte is ever stored to a full FIFO;
what the line has sent, what is in the FIFO and what EL2 still has are, in this
order, all the bytes; and once the line has taken as many bytes as were to be
sent, with two accesses after each, EL2 is done. -/
theorem console_loses_nothing (p : Pl011Tx) (hp : p.fifo = []) (bytes : List (BitVec 8))
    (es : List Event) :
    let r := run es ⟨uartInit Pl011Tx.dev p, bytes, false⟩
    r.dev.lost = p.lost ∧ r.dev.line ++ r.dev.fifo ++ r.todo = p.line ++ bytes
      ∧ (Rounds bytes.length es → r.todo = []) := by
  obtain ⟨hgoing, hinit⟩ := uartInit_going p hp bytes
  obtain ⟨-, hstream, hlost⟩ := hgoing.run es
  refine ⟨?_, ?_, fun hes => ?_⟩
  · rw [hlost, hinit]
  · refine hstream.trans ?_
    rw [Sending.stream, hinit, hp, List.append_nil]
  · have hleft := todo_rounds hgoing hes
    rw [Nat.sub_self] at hleft
    exact List.eq_nil_of_length_eq_zero (Nat.le_zero.mp hleft)

/-- A PL011 after reset. -/
def resetTx : Pl011Tx where
  cr := 0x300
  lcrH := 0
  fifo := []
  line := []
  lost := []

theorem console_loses_nothing_one :
    let r := run [.line, .cpu, .cpu, .line] ⟨uartInit Pl011Tx.dev resetTx, [0x41], false⟩
    r.dev.lost = [] ∧ r.todo = [] ∧ r.dev.line ++ r.dev.fifo = [0x41] := by
  have hrounds : Rounds 1 [.line, .cpu, .cpu, .line] :=
    ⟨[], [.cpu, .cpu, .line], [], rfl, by decide, trivial⟩
  obtain ⟨hlost, hstream, hdone⟩ := console_loses_nothing resetTx rfl [0x41]
    [.line, .cpu, .cpu, .line]
  have htodo := hdone hrounds
  refine ⟨hlost, htodo, ?_⟩
  rw [htodo, List.append_nil] at hstream
  exact hstream

/-! ## On the launcher -/

/-- The launcher's PL011, which the driver reaches through data aborts. -/
def launcher : Dev Hvf.Pl011 := ⟨Hvf.pl011Read, Hvf.pl011Write⟩

section Launcher

/-- One byte. -/
theorem launcher_putc (p : Hvf.Pl011) (c : BitVec 8) (cs : List (BitVec 8)) :
    access launcher (access launcher ⟨p, c :: cs, false⟩)
      = ⟨{ p with out := p.out ++ [c] }, cs, false⟩ := by
  have hbyte : (c.setWidth 32 &&& 0xFF).setWidth 8 = c := by
    revert c
    decide
  have hfr : Hvf.pl011Read uartfr p = 0 := by
    rw [Hvf.pl011Read, if_pos (by decide)]
  have hroom : decide ((0 : BitVec 32) &&& frTxff = 0) = true := by decide
  have hfirst : access launcher ⟨p, c :: cs, false⟩ = ⟨p, c :: cs, true⟩ := by
    change (⟨p, c :: cs, decide (Hvf.pl011Read uartfr p &&& frTxff = 0)⟩ : Sending Hvf.Pl011) = _
    rw [hfr, hroom]
  have hwrite : Hvf.pl011Write uartdr (c.setWidth 32) p = { p with out := p.out ++ [c] } := by
    rw [Hvf.pl011Write, if_pos (by decide), hbyte]
  rw [hfirst]
  exact congrArg (fun d => (⟨d, cs, false⟩ : Sending Hvf.Pl011)) hwrite

theorem launcher_puts (p : Hvf.Pl011) (bytes : List (BitVec 8)) (n : Nat) :
    (access launcher)^[2 * n] ⟨p, bytes, false⟩
      = ⟨{ p with out := p.out ++ bytes.take n }, bytes.drop n, false⟩ := by
  induction n generalizing p bytes with
  | zero =>
      rw [List.take_zero, List.append_nil]
      rfl
  | succ n ih =>
      have htwo : 2 * (n + 1) = 2 * n + 1 + 1 := by omega
      rw [htwo, Function.iterate_succ_apply, Function.iterate_succ_apply]
      cases bytes with
      | nil =>
          have hdone : access launcher ⟨p, [], false⟩ = ⟨p, [], false⟩ := rfl
          rw [hdone, hdone, ih p [], List.take_nil, List.take_nil, List.drop_nil, List.drop_nil]
      | cons c cs =>
          rw [launcher_putc, ih, List.take_succ_cons, List.append_assoc]
          rfl

/-- **The console on the launcher.** After `uart_init`, each byte takes one read
of `UARTFR` and one store to `UARTDR`, and has then been written to `stdout`. -/
theorem launcher_console (p : Hvf.Pl011) (bytes : List (BitVec 8)) (n : Nat) :
    let r := (access launcher)^[2 * n] ⟨uartInit launcher p, bytes, false⟩
    r.dev.out = p.out ++ bytes.take n ∧ r.todo = bytes.drop n := by
  rw [launcher_puts]
  exact ⟨rfl, rfl⟩

end Launcher

end Uart

end ArmHyp
