import Mathlib.Data.List.Sublists
import ArmHyp.UartDriver

/-!
# The shared console (`uart.c`, `guest.c`)

The PL011 is passed through to the guests: EL2's `uart_putc` and guest B's
`guest_putc` are the same poll and store in front of one FIFO, and another
guest stores to `UARTDR` as it likes. EL2 runs with interrupts masked, so
nothing comes between its poll and its store. An exception can come between
guest B's: by the time of its store EL2, or a guest it switched to, may have
filled the FIFO. `shared_console` says that EL2's text gets through whole
whatever the guests store to `UARTDR`, and that guest B's loses at most one
byte for each time it is interrupted there.

The whole PL011 is mapped to the guests. One that stores to `UARTCR` or
`UARTLCR_H` can turn the transmitter or the FIFO off and lose text of EL2's
too; it is not modelled here.
-/

namespace ArmHyp

namespace Uart

/-! ## One FIFO, three senders -/

inductive Who where
  | el2
  | guest
  /-- A guest that is not of this repository. -/
  | other
deriving DecidableEq

/-- The PL011, with a record of who stored what while there was room, and
what while there was none. -/
structure Logged where
  tx : Pl011Tx
  took : List (Who × BitVec 8)
  dropped : List (Who × BitVec 8)

namespace Logged

/-- The registers, as `w` accesses them. -/
def dev (w : Who) : Dev Logged where
  read off p := p.tx.read off
  write off val p :=
    let p' := { p with tx := p.tx.write off val }
    if off = uartdr then
      if p.tx.depth ≤ p.tx.fifo.length then
        { p' with dropped := p.dropped ++ [(w, val.setWidth 8)] }
      else { p' with took := p.took ++ [(w, val.setWidth 8)] }
    else p'

def take (w : Who) (c : BitVec 8) (p : Logged) : Logged :=
  { p with tx := { p.tx with fifo := p.tx.fifo ++ [c] }, took := p.took ++ [(w, c)] }

def drop (w : Who) (c : BitVec 8) (p : Logged) : Logged :=
  { p with tx := { p.tx with lost := p.tx.lost ++ [c] }, dropped := p.dropped ++ [(w, c)] }

theorem write_uartdr {p : Logged} (hdepth : p.tx.depth = 16) (w : Who) (c : BitVec 8) :
    (dev w).write uartdr (c.setWidth 32) p
      = if 16 ≤ p.tx.fifo.length then p.drop w c else p.take w c := by
  have htx := Pl011Tx.write_uartdr hdepth c
  simp only [dev, if_true, hdepth, byte_back, htx]
  by_cases hfull : 16 ≤ p.tx.fifo.length
  · rw [if_pos hfull, if_pos hfull, if_pos hfull, drop]
  · rw [if_neg hfull, if_neg hfull, if_neg hfull, take]

end Logged

/-- What `w` stored. -/
def textOf (w : Who) (l : List (Who × BitVec 8)) : List (BitVec 8) :=
  (l.filter fun e => e.1 = w).map Prod.snd

structure Shared where
  dev : Logged
  /-- Who executes. -/
  cpu : Who
  /-- What EL2 and guest B have to send, and whether their store is next. -/
  todo : Who → List (BitVec 8)
  ready : Who → Bool
  /-- All EL2 was to send. -/
  asked : List (BitVec 8)
  /-- How often guest B was interrupted between its poll and its store. -/
  races : Nat

namespace Shared

def access (w : Who) (s : Shared) : Shared :=
  let t := Uart.access (Logged.dev w) ⟨s.dev, s.todo w, s.ready w⟩
  { s with
    dev := t.dev
    todo := Function.update s.todo w t.todo
    ready := Function.update s.ready w t.ready }

end Shared

inductive Happens where
  /-- The next access of EL2 or guest B, whichever executes. -/
  | cpu
  | line
  /-- An exception, with what EL2 sends while it handles it. -/
  | trap (bytes : List (BitVec 8))
  | eret (w : Who)
  /-- A store of the other guest, to `UARTDR`. -/
  | store (c : BitVec 8)

def Shared.step (s : Shared) : Happens → Shared
  | .cpu => if s.cpu = .other then s else s.access s.cpu
  | .line => { s with dev := { s.dev with tx := s.dev.tx.shift } }
  | .trap bytes =>
      -- nothing is taken to EL2 from EL2
      if s.cpu = .el2 then s
      else
        { s with
          cpu := .el2
          todo := Function.update s.todo .el2 bytes
          asked := s.asked ++ bytes
          races := s.races + if s.cpu = .guest ∧ s.ready .guest = true then 1 else 0 }
  | .eret w => if s.cpu = .el2 ∧ s.todo .el2 = [] then { s with cpu := w } else s
  | .store c =>
      if s.cpu = .other then
        { s with dev := (Logged.dev .other).write uartdr (c.setWidth 32) s.dev }
      else s

def Shared.run (es : List Happens) (s : Shared) : Shared := es.foldl Shared.step s

/-- After `uart_init`, in EL2 with nothing to send; `bytes` is what guest B will
send. -/
def Shared.start (p : Pl011Tx) (bytes : List (BitVec 8)) : Shared where
  dev := ⟨uartInit Pl011Tx.dev p, [], []⟩
  cpu := .el2
  todo := fun w => if w = .guest then bytes else []
  ready := fun _ => false
  asked := []
  races := 0

/-! ## What is kept -/

/-- The FIFO is on and drained, and what it took is what comes out of it after
`line₀`. -/
structure Driven (line₀ : List (BitVec 8)) (p : Logged) : Prop where
  enabled : p.tx.enabled = true
  depth : p.tx.depth = 16
  fits : p.tx.fifo.length ≤ 16
  sent : p.tx.line ++ p.tx.fifo = line₀ ++ p.took.map Prod.snd

/-- What holds of the console at any time, if the line had sent `line₀` at
first and guest B had `bytes` to send. -/
structure Kept (line₀ bytes : List (BitVec 8)) (s : Shared) : Prop where
  dev : Driven line₀ s.dev
  el2Ready : s.ready .el2 = true →
    s.cpu = .el2 ∧ s.todo .el2 ≠ [] ∧ s.dev.tx.fifo.length < 16
  el2Done : s.cpu ≠ .el2 → s.todo .el2 = []
  el2Text : textOf .el2 s.dev.took ++ s.todo .el2 = s.asked
  guestText : ∃ gone, bytes = gone ++ s.todo .guest ∧ (textOf .guest s.dev.took).Sublist gone
    ∧ gone.length = (textOf .guest s.dev.took).length + (textOf .guest s.dev.dropped).length
  guestLost : (textOf .guest s.dev.dropped).length ≤ s.races
  /-- Guest B's poll is still right, or it has been interrupted since. -/
  guestReady : s.ready .guest = true →
    s.cpu = .guest ∧ s.dev.tx.fifo.length < 16
      ∨ (textOf .guest s.dev.dropped).length + 1 ≤ s.races

section Steps

variable {line₀ bytes : List (BitVec 8)} {s : Shared}

theorem textOf_snoc (l : List (Who × BitVec 8)) (w : Who) (c : BitVec 8) :
    textOf w (l ++ [(w, c)]) = textOf w l ++ [c] := by
  simp only [textOf, List.filter_append, List.map_append, List.filter_singleton, decide_true,
    cond_true, List.map_cons, List.map_nil]

theorem textOf_snoc_of_ne (l : List (Who × BitVec 8)) {w v : Who} (h : v ≠ w) (c : BitVec 8) :
    textOf w (l ++ [(v, c)]) = textOf w l := by
  simp only [textOf, List.filter_append, List.filter_singleton, decide_eq_false h, cond_false,
    List.append_nil]

/-- What an access does. -/
theorem access_logged (hdepth : s.dev.tx.depth = 16) (w : Who) :
    s.todo w = [] ∧ s.access w = s
      ∨ (∃ c cs, s.todo w = c :: cs ∧ s.ready w = true
        ∧ s.access w = { s with
            dev := if 16 ≤ s.dev.tx.fifo.length then s.dev.drop w c else s.dev.take w c
            todo := Function.update s.todo w cs
            ready := Function.update s.ready w false })
      ∨ s.todo w ≠ [] ∧ s.ready w = false
        ∧ s.access w = { s with
            ready := Function.update s.ready w (decide (s.dev.tx.fifo.length < 16)) } := by
  cases htodo : s.todo w with
  | nil =>
      refine .inl ⟨rfl, ?_⟩
      simp only [Shared.access, htodo, Uart.access]
      rw [← htodo, Function.update_eq_self, Function.update_eq_self]
  | cons c cs =>
      cases hready : s.ready w with
      | true =>
          refine .inr (.inl ⟨c, cs, rfl, rfl, ?_⟩)
          simp only [Shared.access, htodo, hready, Uart.access, if_true,
            Logged.write_uartdr hdepth]
      | false =>
          have hread : decide ((Logged.dev w).read uartfr s.dev &&& frTxff = 0)
              = decide (s.dev.tx.fifo.length < 16) := Pl011Tx.read_uartfr hdepth
          refine .inr (.inr ⟨List.cons_ne_nil c cs, rfl, ?_⟩)
          simp only [Shared.access, htodo, hready, Uart.access, hread, Bool.false_eq_true, if_false]
          rw [← htodo, Function.update_eq_self]

/-! ## The FIFO -/

section Fifo

variable {p : Logged} (h : Driven line₀ p)
include h

theorem Driven.take (hroom : p.tx.fifo.length < 16) (w : Who) (c : BitVec 8) :
    Driven line₀ (p.take w c) := by
  refine ⟨h.enabled, h.depth, ?_, ?_⟩
  · change (p.tx.fifo ++ [c]).length ≤ 16
    rw [List.length_append]
    exact hroom
  · change p.tx.line ++ (p.tx.fifo ++ [c]) = line₀ ++ (p.took ++ [(w, c)]).map Prod.snd
    rw [← List.append_assoc, h.sent, List.map_append, List.append_assoc]
    rfl

theorem Driven.drop (w : Who) (c : BitVec 8) : Driven line₀ (p.drop w c) :=
  ⟨h.enabled, h.depth, h.fits, h.sent⟩

theorem Driven.shift : Driven line₀ { p with tx := p.tx.shift } := by
  have hshift := Pl011Tx.shift_eq h.enabled
  refine ⟨?_, ?_, ?_, (Pl011Tx.shift_sent h.enabled).trans h.sent⟩
  · rw [hshift]
    exact h.enabled
  · rw [hshift]
    exact h.depth
  · have hfits := h.fits
    rw [Pl011Tx.shift_length h.enabled]
    omega

end Fifo

/-! ## Steps -/

theorem Kept.line (h : Kept line₀ bytes s) : Kept line₀ bytes (s.step .line) := by
  have hlen : s.dev.tx.shift.fifo.length ≤ s.dev.tx.fifo.length := by
    rw [Pl011Tx.shift_length h.dev.enabled]
    exact Nat.sub_le _ 1
  refine ⟨h.dev.shift, fun hready => ?_, h.el2Done, h.el2Text, h.guestText, h.guestLost,
    fun hready => ?_⟩
  · obtain ⟨hcpu, htodo, hroom⟩ := h.el2Ready hready
    exact ⟨hcpu, htodo, Nat.lt_of_le_of_lt hlen hroom⟩
  · obtain ⟨hcpu, hroom⟩ | hraces := h.guestReady hready
    · exact .inl ⟨hcpu, Nat.lt_of_le_of_lt hlen hroom⟩
    · exact .inr hraces

theorem Kept.trap (h : Kept line₀ bytes s) (sends : List (BitVec 8)) :
    Kept line₀ bytes (s.step (.trap sends)) := by
  have htext : s.cpu ≠ .el2 → textOf .el2 s.dev.took ++ sends = s.asked ++ sends := by
    intro hcpu
    have hsent := h.el2Text
    rw [h.el2Done hcpu, List.append_nil] at hsent
    rw [hsent]
  rw [Shared.step]
  split_ifs with hcpu hrace
  · exact h
  · exact ⟨h.dev, fun hready => absurd (h.el2Ready hready).1 hcpu, fun hne => absurd rfl hne,
      htext hcpu, h.guestText, Nat.le_succ_of_le h.guestLost,
      fun _ => .inr (Nat.succ_le_succ h.guestLost)⟩
  · refine ⟨h.dev, fun hready => absurd (h.el2Ready hready).1 hcpu, fun hne => absurd rfl hne,
      htext hcpu, h.guestText, h.guestLost, fun hready => ?_⟩
    obtain ⟨hguest, -⟩ | hraces := h.guestReady hready
    · exact absurd ⟨hguest, hready⟩ hrace
    · exact .inr hraces

theorem Kept.eret (h : Kept line₀ bytes s) (w : Who) : Kept line₀ bytes (s.step (.eret w)) := by
  rw [Shared.step]
  split_ifs with hback
  · obtain ⟨hcpu, hdone⟩ := hback
    refine ⟨h.dev, fun hready => absurd hdone (h.el2Ready hready).2.1, fun _ => hdone, h.el2Text,
      h.guestText, h.guestLost, fun hready => ?_⟩
    obtain ⟨hguest, -⟩ | hraces := h.guestReady hready
    · exact absurd (hcpu.symm.trans hguest) (by decide)
    · exact .inr hraces
  · exact h

/-- A store of the other guest, taken or not. -/
theorem Kept.store (h : Kept line₀ bytes s) (c : BitVec 8) :
    Kept line₀ bytes (s.step (.store c)) := by
  rw [Shared.step]
  split_ifs with hcpu
  · have hel2 : s.cpu ≠ .el2 := by
      rw [hcpu]
      decide
    have hguest : s.cpu ≠ .guest := by
      rw [hcpu]
      decide
    rw [Logged.write_uartdr h.dev.depth]
    split_ifs with hfull
    · have htext : textOf .guest (s.dev.dropped ++ [(.other, c)]) = textOf .guest s.dev.dropped :=
        textOf_snoc_of_ne _ (by decide) c
      refine ⟨h.dev.drop .other c, fun hready => absurd (h.el2Ready hready).1 hel2, h.el2Done,
        h.el2Text, ?_, ?_, fun hready => .inr ?_⟩
      · rw [Logged.drop, htext]
        exact h.guestText
      · rw [Logged.drop, htext]
        exact h.guestLost
      · rw [Logged.drop, htext]
        exact (h.guestReady hready).resolve_left fun hleft => hguest hleft.1
    · have htook : ∀ {w}, .other ≠ w → textOf w (s.dev.took ++ [(.other, c)])
          = textOf w s.dev.took := fun hw => textOf_snoc_of_ne _ hw c
      refine ⟨h.dev.take (Nat.not_le.mp hfull) .other c,
        fun hready => absurd (h.el2Ready hready).1 hel2, h.el2Done, ?_, ?_, h.guestLost,
        fun hready => .inr ?_⟩
      · rw [Logged.take, htook (by decide)]
        exact h.el2Text
      · rw [Logged.take, htook (by decide)]
        exact h.guestText
      · exact (h.guestReady hready).resolve_left fun hleft => hguest hleft.1
  · exact h

/-- EL2 polls or stores: nobody came between the two. -/
theorem Kept.accessEl2 (h : Kept line₀ bytes s) (hcpu : s.cpu = .el2) :
    Kept line₀ bytes (s.access .el2) := by
  have hguest : s.cpu ≠ .guest := by
    rw [hcpu]
    decide
  have hraces : s.ready .guest = true →
      (textOf .guest s.dev.dropped).length + 1 ≤ s.races := fun hready =>
    (h.guestReady hready).resolve_left fun hleft => hguest hleft.1
  rcases access_logged h.dev.depth .el2 with ⟨-, heq⟩ | ⟨c, cs, htodo, hready, heq⟩
    | ⟨htodo, -, heq⟩
  · rw [heq]
    exact h
  · have hroom := (h.el2Ready hready).2.2
    have htext := h.el2Text
    rw [heq, if_neg (Nat.not_le.mpr hroom)]
    refine ⟨h.dev.take hroom .el2 c, nofun, fun hne => absurd hcpu hne, ?_, ?_, h.guestLost,
      fun hguestReady => .inr (hraces hguestReady)⟩
    · change textOf .el2 (s.dev.took ++ [(.el2, c)]) ++ cs = s.asked
      rw [textOf_snoc, List.append_assoc, ← htext, htodo]
      rfl
    · rw [Logged.take, textOf_snoc_of_ne _ (by decide)]
      exact h.guestText
  · rw [heq]
    refine ⟨h.dev, fun hroom => ?_, h.el2Done, h.el2Text, h.guestText, h.guestLost,
      fun hguestReady => .inr (hraces hguestReady)⟩
    exact ⟨hcpu, htodo, of_decide_eq_true hroom⟩

/-- Guest B polls or stores. A store that finds no room was interrupted. -/
theorem Kept.accessGuest (h : Kept line₀ bytes s) (hcpu : s.cpu = .guest) :
    Kept line₀ bytes (s.access .guest) := by
  have hel2 : s.cpu ≠ .el2 := by
    rw [hcpu]
    decide
  rcases access_logged h.dev.depth .guest with ⟨-, heq⟩ | ⟨c, cs, htodo, hready, heq⟩
    | ⟨-, -, heq⟩
  · rw [heq]
    exact h
  · obtain ⟨gone, hgone, hsub, hlen⟩ := h.guestText
    have hbytes : bytes = (gone ++ [c]) ++ cs := by
      rw [hgone, htodo, List.append_assoc]
      rfl
    rw [heq]
    split_ifs with hfull
    · have hraces : (textOf .guest s.dev.dropped).length + 1 ≤ s.races :=
        (h.guestReady hready).resolve_left fun hleft => absurd hleft.2 (Nat.not_lt.mpr hfull)
      have htext : textOf .guest (s.dev.dropped ++ [(.guest, c)])
          = textOf .guest s.dev.dropped ++ [c] := textOf_snoc _ _ c
      refine ⟨h.dev.drop .guest c, fun hready => absurd (h.el2Ready hready).1 hel2, h.el2Done,
        h.el2Text, ⟨gone ++ [c], hbytes, hsub.trans (List.sublist_append_left gone [c]), ?_⟩, ?_,
        nofun⟩
      · rw [Logged.drop, htext, List.length_append, List.length_append, hlen]
        rfl
      · rw [Logged.drop, htext, List.length_append]
        exact hraces
    · refine ⟨h.dev.take (Nat.not_le.mp hfull) .guest c,
        fun hready => absurd (h.el2Ready hready).1 hel2, h.el2Done, ?_,
        ⟨gone ++ [c], hbytes, ?_, ?_⟩, h.guestLost, nofun⟩
      · rw [Logged.take, textOf_snoc_of_ne _ (by decide)]
        exact h.el2Text
      · rw [Logged.take, textOf_snoc]
        exact hsub.append (List.Sublist.refl [c])
      · rw [Logged.take, textOf_snoc, List.length_append, List.length_append, hlen]
        exact Nat.add_right_comm _ _ _
  · rw [heq]
    refine ⟨h.dev, fun hready => absurd (h.el2Ready hready).1 hel2, h.el2Done, h.el2Text,
      h.guestText, h.guestLost, fun hroom => ?_⟩
    exact .inl ⟨hcpu, of_decide_eq_true hroom⟩

theorem Kept.step (h : Kept line₀ bytes s) (e : Happens) : Kept line₀ bytes (s.step e) := by
  cases e with
  | cpu =>
      rw [Shared.step]
      cases hcpu : s.cpu with
      | el2 => exact h.accessEl2 hcpu
      | guest => exact h.accessGuest hcpu
      | other => exact h
  | line => exact h.line
  | trap sends => exact h.trap sends
  | eret w => exact h.eret w
  | store c => exact h.store c

theorem Kept.run (h : Kept line₀ bytes s) (es : List Happens) :
    Kept line₀ bytes (s.run es) := by
  induction es generalizing s with
  | nil => exact h
  | cons e es ih => exact ih (h.step e)

end Steps

theorem kept_start (p : Pl011Tx) (hp : p.fifo = []) (bytes : List (BitVec 8)) :
    Kept p.line bytes (Shared.start p bytes) := by
  obtain ⟨hgoing, hinit⟩ := uartInit_going p hp bytes
  have hdev : Driven p.line ⟨uartInit Pl011Tx.dev p, [], []⟩ := by
    refine ⟨hgoing.enabled, hgoing.depth, hgoing.fits, ?_⟩
    rw [hinit]
    change p.line ++ p.fifo = p.line ++ []
    rw [hp]
  exact ⟨hdev, nofun, fun hne => absurd rfl hne, rfl, ⟨[], rfl, List.nil_sublist [], rfl⟩,
    Nat.le_refl 0, nofun⟩

/-- **The shared console.** After `uart_init` on an empty FIFO, however EL2,
guest B, another guest that stores to `UARTDR` and the line interleave: what
comes out is what was stored while there was room, in this order; of what EL2
was to send nothing is missing, doubled or out of order; and of what guest B
has stored, what came out is a subsequence with at most one byte missing for
each time it was interrupted between its poll and its store. -/
theorem shared_console (p : Pl011Tx) (hp : p.fifo = []) (bytes : List (BitVec 8))
    (es : List Happens) :
    let r := (Shared.start p bytes).run es
    r.dev.tx.line ++ r.dev.tx.fifo = p.line ++ r.dev.took.map Prod.snd
      ∧ textOf .el2 r.dev.took ++ r.todo .el2 = r.asked
      ∧ ∃ gone, bytes = gone ++ r.todo .guest ∧ (textOf .guest r.dev.took).Sublist gone
        ∧ gone.length ≤ (textOf .guest r.dev.took).length + r.races := by
  have hkept := (kept_start p hp bytes).run es
  obtain ⟨gone, hgone, hsub, hlen⟩ := hkept.guestText
  have hlost := hkept.guestLost
  exact ⟨hkept.dev.sent, hkept.el2Text, gone, hgone, hsub, by omega⟩

/-- Guest B polls, EL2 fills the FIFO, and guest B stores. -/
def interrupted : List Happens :=
  [.eret .guest, .cpu, .trap (List.replicate 16 0x2E)] ++ List.replicate 32 .cpu
    ++ [.eret .guest, .cpu]

theorem shared_console_byte_lost :
    let r := (Shared.start resetTx [0x41]).run interrupted
    textOf .guest r.dev.took = [] ∧ r.todo .guest = [] ∧ r.races = 1
      ∧ textOf .el2 r.dev.took ++ r.todo .el2 = r.asked := by
  obtain ⟨-, hel2, -⟩ := shared_console resetTx rfl [0x41] interrupted
  exact ⟨by decide +kernel, by decide +kernel, by decide +kernel, hel2⟩

end Uart

end ArmHyp
