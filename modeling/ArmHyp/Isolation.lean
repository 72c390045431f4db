import ArmHyp.Guest
import ArmHyp.Stage2Live

/-!
# The private window over whole runs

What stage 2 isolates is one IPA: `VM_PRIVATE_IPA` is backed by a page of each
VM's own. Here the guests write memory as the hardware lets them, through the
translation in force. All of RAM is in it, so they could write EL2's image, with
the tables, each other's page and `vcpus[]`, at its own addresses; what is asked
of them is not to do that (`WritesOwn`), `guest_states[]` apart. Then the tables
stay as they were built, and what a guest reads in its private window is what
it left there itself, whatever the other one did in between
(`private_window_isolated`).
-/

namespace ArmHyp

open Machine

/-! ## What a guest can write -/

/-- What the guest that ran from `m` to `t` changed, it changed through its own
translation, at an IPA that is not an address of EL2's image outside
`guest_states[]`. -/
def WritesOwn {b : Build} (img : El2Image b) (m : Machine) (t : Trap) : Prop :=
  ∀ a, t.mem a ≠ m.mem a → ∃ ipa x,
    S2.walk (m.mrs .vtcrEl2) (m.mrs .vttbrEl2) m.mem ipa = .ok x ∧ x.pa = a
      ∧ (img.Holds ipa → b.InGuestStates ipa)

/-- Byte `k` of VM `j`'s private page. -/
def Build.pageByte (b : Build) (μ : Mem) (j k : Nat) : BitVec 8 :=
  μ (b.layout.base .privPage j + k)

section Writes

variable {b : Build} {img : El2Image b} {m : Machine} {t : Trap}

/-- In the image, only `guest_states[]` and the running VM's page can change. -/
theorem WritesOwn.keepsImage (h : WritesOwn img m t) (hforce : InForce b m) (hwf : m.Wf b) :
    KeepsImage img m t := by
  intro a himage hne
  obtain ⟨ipa, x, hwalk, rfl, hout⟩ := h a hne
  have hmap : intendedMap b.layout m.current ipa = some x := by
    rw [← intendedWalk_toOption, ← hforce.walk hwf, hwalk]
    rfl
  rcases intendedMap_cases hmap with ⟨hpa, -⟩ | ⟨hpa, -⟩ | ⟨hpriv, -⟩
  · rw [hpa] at himage ⊢
    exact .inl (hout himage)
  · rw [hpa] at himage ⊢
    exact .inl (hout himage)
  · exact .inr hpriv

theorem WritesOwn.pageByte_eq (h : WritesOwn img m t) (hforce : InForce b m) (hwf : m.Wf b)
    {j : Nat} (hj : j < b.nvcpu) (hne : j ≠ m.current) {k : Nat} (hk : k < 4096) :
    b.pageByte t.mem j k = b.pageByte m.mem j k := by
  have hid : j < maxVms := Nat.lt_of_lt_of_le hj b.nvcpu_le
  have hcur : m.current < maxVms := Nat.lt_of_lt_of_le hwf.current_lt b.nvcpu_le
  by_contra hchanged
  have hin : InPage (b.layout.base .privPage j) (b.layout.base .privPage j + k) := by
    unfold InPage
    omega
  obtain ⟨himage, hout⟩ := img.holds_object hid hin
  rcases h.keepsImage hforce hwf _ himage hchanged with hgs | hown
  · exact hout hgs
  · exact hne (Prod.mk.inj (hin.unique hid hcur hown)).2

end Writes

/-! ## Runs -/

/-- Each VM's page as the VM itself left it. -/
def ownPages (b : Build) (m : Machine) (g : Nat → Nat → BitVec 8) (t : Trap) :
    Nat → Nat → BitVec 8 :=
  Function.update g m.current (b.pageByte t.mem m.current)

/-- Runs in which the guests write what is theirs, with what each of them left
in its page. -/
def PagesRun {b : Build} (img : El2Image b) (s : Machine × (Nat → Nat → BitVec 8)) : Prop :=
  Reach (fun s => Booted b s.1 ∧ s.2 = b.pageByte s.1.mem) (observed (step b) (ownPages b))
    (fun s t => WritesOwn img s.1 t) s

section Runs

variable {b : Build} {img : El2Image b}

theorem PagesRun.reachable {s : Machine × (Nat → Nat → BitVec 8)} (h : PagesRun img s) :
    Reachable b (WritesOwn img) s.1 := by
  refine Reach.forget ?_ ?_ h
  · exact fun _ hs => hs.1
  · exact fun _ _ ht => ht

theorem PagesRun.kept {s : Machine × (Nat → Nat → BitVec 8)} (h : PagesRun img s) :
    InForce b s.1 ∧ ∀ j < b.nvcpu, ∀ k < 4096, b.pageByte s.1.mem j k = s.2 j k := by
  refine Reach.invariant (I := fun s => InForce b s.1
    ∧ ∀ j < b.nvcpu, ∀ k < 4096, b.pageByte s.1.mem j k = s.2 j k) ?_ ?_ h
  · rintro s ⟨hb, hg⟩
    refine ⟨booted_inForce hb, fun j _ k _ => ?_⟩
    rw [hg]
  · rintro s t s' hrun ⟨hforce, hpages⟩ ht hs
    obtain ⟨hstep, hobs⟩ := observed_eq_some.mp hs
    have hwf := reachable_wf (PagesRun.reachable hrun)
    refine ⟨hforce.step ((ht.keepsImage hforce hwf).keepsTables img hwf) hstep, fun j hj k hk => ?_⟩
    rw [step_mem hstep, ← hobs, ownPages]
    by_cases hcur : j = s.1.current
    · rw [hcur, Function.update_self]
    · rw [Function.update_of_ne hcur, ht.pageByte_eq hforce hwf hj hcur hk]
      exact hpages j hj k hk

/-- **The private window is private.** In every run from boot in which the guests
write only through their translation, and not at the addresses of EL2's image,
`guest_states[]` apart: the translation in force is still the intended one, and each
byte the running guest reads from its private window, the one `guest.c` prints
included, is what that VM itself left there the last time it ran. -/
theorem private_window_isolated {m : Machine} {g : Nat → Nat → BitVec 8}
    (h : PagesRun img (m, g)) :
    (∀ ipa, S2.walk (m.mrs .vtcrEl2) (m.mrs .vttbrEl2) m.mem ipa
        = intendedWalk b.layout m.current ipa)
      ∧ (∀ k < 4096, ∃ x, S2.walk (m.mrs .vtcrEl2) (m.mrs .vttbrEl2) m.mem (privIpa.toNat + k)
          = .ok x ∧ m.mem x.pa = g m.current k)
      ∧ m.privByte = g m.current 0 := by
  obtain ⟨hforce, hpages⟩ := h.kept
  have hwf := reachable_wf h.reachable
  have hwalk := hforce.walk hwf
  have hwindow : ∀ k < 4096, ∃ x,
      S2.walk (m.mrs .vtcrEl2) (m.mrs .vttbrEl2) m.mem (privIpa.toNat + k) = .ok x
        ∧ m.mem x.pa = g m.current k := by
    intro k hk
    have hipa : privIpa.toNat = 0x0A000000 := rfl
    have hoff : (0x0A000000 + k) % 4096 = k := by omega
    have hx := hwalk (privIpa.toNat + k)
    rw [hipa, intendedWalk_privPage (by omega), hoff] at hx
    exact ⟨_, hx, hpages m.current hwf.current_lt k hk⟩
  refine ⟨hwalk, hwindow, ?_⟩
  obtain ⟨x, hx, hbyte⟩ := hwindow 0 (by decide)
  rw [Nat.add_zero] at hx
  rw [privByte, hx]
  exact hbyte

end Runs

/-! ## The seed -/

section Seed

variable {L : S2Layout} {id j : Nat} (hid : id < maxVms) (hj : j < maxVms)
include hid hj

theorem setEntry_privPage (μ : Mem) {o : S2Obj} (ho : o ≠ .privPage) {i : Nat} (hi : i < 512)
    (v : BitVec 64) :
    μ.setEntry (L.base o id) i v (L.base .privPage j) = μ (L.base .privPage j) := by
  have hd := L.disjoint o id .privPage j hid hj fun h => ho (Prod.mk.inj h).1
  refine μ.write64_of_apart v ?_
  unfold S2Layout.base
  omega

theorem zeroTables_privPage (μ : Mem) {n : Nat} (hn : n ≤ 512) :
    zeroTables L id n μ (L.base .privPage j) = μ (L.base .privPage j) := by
  induction n with
  | zero => rfl
  | succ n ih =>
      have hlt : n < 512 := by omega
      rw [zeroTables, setEntry_privPage hid hj _ (by decide) hlt,
        setEntry_privPage hid hj _ (by decide) hlt, setEntry_privPage hid hj _ (by decide) hlt,
        setEntry_privPage hid hj _ (by decide) hlt, ih (by omega)]

/-- `stage2_alloc_vm` seeds its own VM's page. -/
theorem buildTables_privPage (μ : Mem) :
    buildTables L id μ (L.base .privPage j)
      = if j = id then BitVec.ofNat 8 (0x41 + id) else μ (L.base .privPage j) := by
  by_cases hji : j = id
  · rw [buildTables, hji, Function.update_self, if_pos rfl]
  · have hne : L.base .privPage j ≠ L.base .privPage id := by
      have hd := L.disjoint .privPage j .privPage id hj hid fun h => hji (Prod.mk.inj h).2
      unfold S2Layout.base
      omega
    rw [if_neg hji, buildTables, Function.update_of_ne hne,
      setEntry_privPage hid hj _ (by decide) (by decide),
      setEntry_privPage hid hj _ (by decide) (by decide),
      setEntry_privPage hid hj _ (by decide) (by decide),
      setEntry_privPage hid hj _ (by decide) (by decide),
      setEntry_privPage hid hj _ (by decide) (by decide),
      setEntry_privPage hid hj _ (by decide) (by decide),
      zeroTables_privPage hid hj μ (Nat.le_refl 512)]

end Seed

/-- After boot each page starts with its VM's letter. -/
theorem booted_pageByte {b : Build} {m : Machine} (h : Booted b m) {j : Nat} (hj : j < b.nvcpu) :
    b.pageByte m.mem j 0 = BitVec.ofNat 8 (0x41 + j) := by
  have hle := b.nvcpu_le
  have hmax : maxVms = 2 := rfl
  obtain ⟨μ, hmem⟩ := booted_mem h
  rw [Build.pageByte, Nat.add_zero, hmem, builtMem]
  split_ifs with hn
  · rw [buildTables_privPage (by decide) (by omega), buildTables_privPage (by decide) (by omega)]
    obtain rfl | rfl : j = 0 ∨ j = 1 := by omega
    · rfl
    · rfl
  · obtain rfl : j = 0 := by omega
    rw [buildTables_privPage (by decide) (by decide), if_pos rfl]

/-- Linux writes its private window, and is interrupted by the tick. -/
def Trap.tickAfterWrite (m : Machine) : Trap :=
  { Trap.irq irqHtimer with
    mem := Function.update m.mem ((default : Build).layout.base .privPage 0) 0x7A }

/-- Guest B then still finds its letter. -/
theorem private_window_isolated_guestB : ∃ m g, PagesRun .standard (m, g) ∧ m.current = 1
    ∧ m.privByte = 0x42 := by
  obtain ⟨m₀, hb, hs⟩ := exists_booted default atReset_default
  have hforce := booted_inForce hb
  have hrun : PagesRun .standard (m₀, (default : Build).pageByte m₀.mem) := .start ⟨hb, rfl⟩
  have hwf := reachable_wf hrun.reachable
  have hwrites : WritesOwn .standard m₀ (.tickAfterWrite m₀) := by
    intro a hne
    have ha : a = (default : Build).layout.base .privPage 0 := by
      by_contra hother
      exact hne (Function.update_of_ne hother _ _)
    have hwalk := hforce.walk hwf 0x0A000000
    rw [hs.current, intendedWalk_privPage rfl] at hwalk
    exact ⟨0x0A000000, _, hwalk, ha.symm, fun himage => absurd himage.1 (by decide)⟩
  obtain ⟨m, hstep⟩ := step_handled default m₀ (t := .tickAfterWrite m₀) (Or.inl rfl)
  have htick : (Trap.tickAfterWrite m₀).IsTick := by
    refine ⟨Or.inl rfl, ?_⟩
    change intidOf irqHtimer = irqHtimer
    decide
  have hcur : m.current = 1 := by
    rw [step_tick_current hwf hstep htick, hs.current]
    rfl
  have hnext : PagesRun .standard (m, ownPages default m₀ ((default : Build).pageByte m₀.mem)
      (.tickAfterWrite m₀)) := .next hrun hwrites (observed_eq_some.mpr ⟨hstep, rfl⟩)
  refine ⟨m, _, hnext, hcur, ?_⟩
  rw [(private_window_isolated hnext).2.2, hcur, ownPages, hs.current,
    Function.update_of_ne (by decide)]
  exact booted_pageByte hb (j := 1) (by decide)

end ArmHyp
