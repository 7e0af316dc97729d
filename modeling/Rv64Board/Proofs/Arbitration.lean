import Mathlib.Data.List.Sort
import Rv64Board.Proofs.InterruptSelection
import Rv64Board.Proofs.InterruptService

/-!
# Which source a context is given

The interrupt controller scans its sources once, keeping the best one so far.  The same scan decides
whether the line of a context is up and what a claim returns; a claim takes the source away, so the
next one finds another best.

* `Plic.Waits` — a source is pending, enabled and urgent enough for a context.
* `Plic.Before` — the order of service: by urgency, and by number among equals.
* `best?_spec` — **the scan finds the first in this order.**
* `claim_cases`, `Plic.Granted` — what a claim returns, and what becomes of the two sets.
* `in_route` — the line of a context after a route.
* `Plic.queue`, `claims_eq_takeD` — **claims in a row take the waiting sources one by one.**
-/

namespace Rv64Board.Plic

open Bits (In in_and in_ite in_not in_or)

/-! ## Waiting sources and their order -/

/-- A source waits for a context: it is pending, enabled for the context, and more urgent than its
    threshold. -/
structure Waits (p : Plic) (c : Fin 2) (id : Fin 64) : Prop where
  source : id.val ≠ 0
  pending : In id p.pending
  enabled : In id (p.contexts.get c).enable
  urgent : (p.contexts.get c).threshold < p.priority.get id

/-- A source is served before another one: it is more urgent, or as urgent and of a lower number. -/
def Before (p : Plic) (id other : Fin 64) : Prop :=
  p.priority.get other < p.priority.get id ∨
    p.priority.get id = p.priority.get other ∧ id < other

instance (p : Plic) (id other : Fin 64) : Decidable (p.Before id other) :=
  inferInstanceAs (Decidable (_ ∨ _))

variable {p : Plic} {c : Fin 2} {id other third : Fin 64}

namespace Before

lemma irrefl (p : Plic) (id : Fin 64) : ¬p.Before id id := by
  rintro (hless | ⟨-, hless⟩)
  · exact UInt64.lt_irrefl _ hless
  · exact Fin.lt_irrefl _ hless

lemma trans (h : p.Before id other) (h' : p.Before other third) : p.Before id third := by
  rcases h with hless | ⟨heq, hlow⟩ <;> rcases h' with hless' | ⟨heq', hlow'⟩
  · exact Or.inl (UInt64.lt_trans hless' hless)
  · exact Or.inl (heq' ▸ hless)
  · exact Or.inl (heq ▸ hless')
  · exact Or.inr ⟨heq.trans heq', Fin.lt_trans hlow hlow'⟩

lemma total (p : Plic) (hne : id ≠ other) : p.Before id other ∨ p.Before other id := by
  by_cases hmore : p.priority.get other < p.priority.get id
  · exact Or.inl (Or.inl hmore)
  by_cases hless : p.priority.get id < p.priority.get other
  · exact Or.inr (Or.inl hless)
  have heq : p.priority.get id = p.priority.get other :=
    UInt64.le_antisymm (UInt64.not_lt.mp hmore) (UInt64.not_lt.mp hless)
  rcases lt_or_gt_of_ne hne with hlow | hhigh
  · exact Or.inl (Or.inr ⟨heq, hlow⟩)
  · exact Or.inr (Or.inr ⟨heq.symm, hhigh⟩)

/-- A source that is another one, or comes before it, comes before all that the other comes
    before. -/
lemma of_first (h : other ≠ id → p.Before id other) (h' : p.Before other third) :
    p.Before id third := by
  by_cases heq : other = id
  · exact heq ▸ h'
  · exact (h heq).trans h'

end Before

lemma mem_waiting : id ∈ sources.filter (p.eligible c) ↔ p.Waits c id := by
  have hsource : id ∈ sources ↔ id.val ≠ 0 := by
    revert id
    decide
  rw [List.mem_filter, hsource, eligible, Bool.and_eq_true, bne_iff_ne, decide_eq_true_iff]
  constructor
  · rintro ⟨hne, hin, hurgent⟩
    obtain ⟨hpending, henabled⟩ := in_and.mp (in_iff_and.mpr hin)
    exact ⟨hne, hpending, henabled, hurgent⟩
  · intro h
    exact ⟨h.source, in_iff_and.mp (in_and.mpr ⟨h.pending, h.enabled⟩), h.urgent⟩

/-! ## The best source -/

/-- A source is the first of those that wait for a context. -/
structure First (p : Plic) (c : Fin 2) (id : Fin 64) : Prop where
  waits : p.Waits c id
  before : ∀ other, p.Waits c other → other ≠ id → p.Before id other

/-- Of two sources in increasing order, the one that is served first is kept. -/
lemma moreUrgent_some {best next : Fin 64} (hlow : best < next) :
    ∃ kept ∈ [best, next], p.moreUrgent (some best) next = some kept ∧
      ∀ other ∈ [best, next], other ≠ kept → p.Before kept other := by
  rw [moreUrgent]
  by_cases hmore : p.priority[best] < p.priority[next]
  · refine ⟨next, by simp, if_pos hmore, fun other hother hne => ?_⟩
    obtain rfl : other = best := by simpa [hne] using hother
    exact Or.inl hmore
  · refine ⟨best, by simp, if_neg hmore, fun other hother hne => ?_⟩
    obtain rfl : other = next := by simpa [hne] using hother
    refine (Before.total p hne.symm).resolve_right ?_
    rintro (hless | ⟨-, hhigh⟩)
    · exact hmore hless
    · exact absurd hlow (Fin.lt_asymm hhigh)

/-- The scan goes through increasing numbers, so that keeping the best one on ties keeps the
    lowest. -/
lemma foldl_moreUrgent {best : Fin 64} {row : List (Fin 64)}
    (hrow : (best :: row).Pairwise (· < ·)) :
    ∃ id ∈ best :: row, row.foldl p.moreUrgent (some best) = some id ∧
      ∀ other ∈ best :: row, other ≠ id → p.Before id other := by
  induction row generalizing best with
  | nil =>
      refine ⟨best, List.mem_cons_self, rfl, fun other hother hne => ?_⟩
      exact absurd (List.mem_singleton.mp hother) hne
  | cons next row ih =>
      have hsplit : (best :: next :: row) = [best, next] ++ row := rfl
      rw [hsplit] at hrow ⊢
      obtain ⟨hpair, hrest, hlow⟩ := List.pairwise_append.mp hrow
      obtain ⟨kept, hkept, hmore, hafter⟩ := moreUrgent_some (p := p) (List.pairwise_pair.mp hpair)
      obtain ⟨id, hid, hfold, hfirst⟩ := ih (List.pairwise_cons.mpr ⟨hlow kept hkept, hrest⟩)
      refine ⟨id, ?_, by rw [List.foldl_cons, hmore, hfold], fun other hother hne => ?_⟩
      · rcases List.mem_cons.mp hid with rfl | hid
        · exact List.mem_append_left _ hkept
        · exact List.mem_append_right _ hid
      · rcases List.mem_append.mp hother with hother | hother
        · by_cases hother' : other = kept
          · exact hfirst other (hother' ▸ List.mem_cons_self) hne
          · exact Before.of_first (hfirst kept List.mem_cons_self) (hafter other hother hother')
        · exact hfirst other (List.mem_cons_of_mem _ hother) hne

lemma First.unique (h : p.First c id) (h' : p.First c other) : id = other := by
  by_contra hne
  have hbefore : p.Before id other := h.before other h'.waits (Ne.symm hne)
  exact Before.irrefl p id (hbefore.trans (h'.before id h.waits hne))

/-- **The best source is the first of those that wait,** if any does. -/
lemma best?_spec (p : Plic) (c : Fin 2) :
    p.best? c = none ∧ (∀ id, ¬p.Waits c id) ∨ ∃ id, p.best? c = some id ∧ p.First c id := by
  have hsorted : (sources.filter (p.eligible c)).Pairwise (· < ·) :=
    List.Pairwise.filter _ (by decide)
  have hmem (id : Fin 64) : id ∈ sources.filter (p.eligible c) ↔ p.Waits c id := mem_waiting
  rw [best?]
  cases hrow : sources.filter (p.eligible c) with
  | nil =>
      refine Or.inl ⟨rfl, fun id hwaits => ?_⟩
      rw [← hmem, hrow] at hwaits
      cases hwaits
  | cons best row =>
      rw [hrow] at hsorted hmem
      obtain ⟨id, hid, hfold, hfirst⟩ := foldl_moreUrgent (p := p) hsorted
      refine Or.inr ⟨id, hfold, (hmem id).mp hid, fun other hwaits hne => ?_⟩
      exact hfirst other ((hmem other).mpr hwaits) hne

/-! ## Claims -/

/-- A controller before and after it hands out a source. -/
structure Granted (p : Plic) (id : Fin 64) (p' : Plic) : Prop where
  pending : ∀ other, In other p'.pending ↔ In other p.pending ∧ other ≠ id
  inService : ∀ other, In other p'.inService ↔ In other p.inService ∨ other = id
  priority : p'.priority = p.priority
  contexts : p'.contexts = p.contexts

/-- **A claim hands out the first of the sources that wait,** or nothing. -/
lemma claim_cases (p : Plic) (c : Fin 2) :
    (∀ id, ¬p.Waits c id) ∧ p.claim c = (0, p) ∨
    ∃ id, p.First c id ∧ (p.claim c).1 = UInt64.ofNat id.val ∧ p.Granted id (p.claim c).2 := by
  rw [claim]
  rcases p.best?_spec c with ⟨hbest, hnone⟩ | ⟨id, hbest, hfirst⟩
  · rw [hbest]
    exact Or.inl ⟨hnone, rfl⟩
  · rw [hbest]
    refine Or.inr ⟨id, hfirst, rfl, fun other => ?_, fun other => ?_, rfl, rfl⟩
    · rw [in_and, in_not, in_bitOf]
    · rw [in_or, in_bitOf]

lemma First.not_idle (h : p.First c id) : ¬∀ id, ¬p.Waits c id := fun hnone => hnone id h.waits

lemma First.claim (h : p.First c id) :
    (p.claim c).1 = UInt64.ofNat id.val ∧ p.Granted id (p.claim c).2 := by
  rcases p.claim_cases c with ⟨hnone, -⟩ | ⟨granted, hfirst, hclaim⟩
  · exact absurd hnone h.not_idle
  · rwa [h.unique hfirst]

namespace Granted

variable {p' : Plic}

lemma waits_iff (h : p.Granted id p') : p'.Waits c other ↔ p.Waits c other ∧ other ≠ id := by
  constructor
  · intro hwaits
    obtain ⟨hpending, hne⟩ := (h.pending other).mp hwaits.pending
    refine ⟨⟨hwaits.source, hpending, ?_, ?_⟩, hne⟩
    · exact h.contexts ▸ hwaits.enabled
    · exact h.contexts ▸ h.priority ▸ hwaits.urgent
  · rintro ⟨hwaits, hne⟩
    refine ⟨hwaits.source, (h.pending other).mpr ⟨hwaits.pending, hne⟩, ?_, ?_⟩
    · exact h.contexts ▸ hwaits.enabled
    · rw [h.contexts, h.priority]
      exact hwaits.urgent

lemma before_iff (h : p.Granted id p') : p'.Before other third ↔ p.Before other third := by
  rw [Before, Before, h.priority]

end Granted

lemma number_ne_zero (h : p.Waits c id) : UInt64.ofNat id.val ≠ 0 := by
  intro hzero
  have hid : id = ⟨0, by decide⟩ := ofNat_inj hzero
  exact h.source (congrArg Fin.val hid)

lemma claim_eq_zero_iff : (p.claim c).1 = 0 ↔ ∀ id, ¬p.Waits c id := by
  rcases p.claim_cases c with ⟨hnone, hclaim⟩ | ⟨id, hfirst, hvalue, -⟩
  · rw [hclaim]
    exact ⟨fun _ => hnone, fun _ => rfl⟩
  · rw [hvalue]
    exact ⟨fun hzero => absurd hzero (number_ne_zero hfirst.waits),
      fun hnone => absurd hnone hfirst.not_idle⟩

lemma claim_eq_iff : (p.claim c).1 = UInt64.ofNat id.val ∧ id.val ≠ 0 ↔ p.First c id := by
  constructor
  · rintro ⟨hvalue, hne⟩
    rcases p.claim_cases c with ⟨-, hclaim⟩ | ⟨first, hfirst, hvalue', -⟩
    · rw [hclaim] at hvalue
      have hid : ⟨0, by decide⟩ = id := ofNat_inj hvalue
      exact absurd (congrArg Fin.val hid).symm hne
    · rwa [ofNat_inj (hvalue.symm.trans hvalue')]
  · intro h
    exact ⟨h.claim.1, h.waits.source⟩

/-! ## Lines -/

/-- The external interrupt that a context drives. -/
def lineOf (c : Fin 2) : Interrupt :=
  if c.val = 0 then .machineExternal else .supervisorExternal

lemma lineOf_in_mask : ∀ c d : Fin 2, (lineOf c).In (lineOf d).mask ↔ c = d := by decide

lemma in_driven : (lineOf c).In p.driven ↔ (p.claim c).1 ≠ 0 := by
  have hdriven : p.driven = (if (p.best? 0).isSome then (lineOf 0).mask else 0) |||
      (if (p.best? 1).isSome then (lineOf 1).mask else 0) := rfl
  simp only [hdriven, in_or, in_ite, lineOf_in_mask, ← claim_ne_zero_iff]
  match c with
  | 0 => simp
  | 1 => simp

/-- **A route raises the line of a context exactly if a claim would then return a source.** -/
lemma in_route (lines : Lines) :
    (lineOf c).In (p.route lines).2.mip ↔
      (lineOf c).In lines.mip ∨ ((p.route lines).1.claim c).1 ≠ 0 := by
  rw [← in_driven]
  exact in_or

/-! ## Claims in a row -/

/-- The sources that wait for a context, in the order in which they are served. -/
def queue (p : Plic) (c : Fin 2) : List (Fin 64) :=
  (sources.filter (p.eligible c)).insertionSort fun id other => id = other ∨ p.Before id other

lemma mem_queue : id ∈ p.queue c ↔ p.Waits c id := by
  rw [queue, List.mem_insertionSort, mem_waiting]

lemma nodup_queue (p : Plic) (c : Fin 2) : (p.queue c).Nodup := by
  rw [queue, (List.perm_insertionSort _ _).nodup_iff]
  exact List.Nodup.filter _ (by decide)

lemma pairwise_queue (p : Plic) (c : Fin 2) : (p.queue c).Pairwise p.Before := by
  have htotal : Std.Total fun id other => id = other ∨ p.Before id other := ⟨fun id other => by
    by_cases hne : id = other
    · exact Or.inl (Or.inl hne)
    · exact (Before.total p hne).imp Or.inr Or.inr⟩
  have htrans : IsTrans _ fun id other => id = other ∨ p.Before id other := ⟨by
    rintro id other third (rfl | h) (rfl | h')
    · exact Or.inl rfl
    · exact Or.inr h'
    · exact Or.inr h
    · exact Or.inr (h.trans h')⟩
  have hsorted := List.pairwise_insertionSort (fun id other => id = other ∨ p.Before id other)
    (sources.filter (p.eligible c))
  exact (hsorted.and (nodup_queue p c)).imp fun h => h.1.resolve_left h.2

/-- The answers to a number of claims in a row. -/
def claims (c : Fin 2) : Nat → Plic → List UInt64
  | 0, _ => []
  | n + 1, p => (p.claim c).1 :: claims c n (p.claim c).2

lemma claims_of_idle (hnone : ∀ id, ¬p.Waits c id) (n : Nat) :
    claims c n p = List.replicate n 0 := by
  rcases p.claim_cases c with ⟨-, hclaim⟩ | ⟨id, hfirst, -⟩
  · induction n with
    | zero => rfl
    | succ n ih => rw [claims, hclaim, ih, List.replicate_succ]
  · exact absurd hnone hfirst.not_idle

/-- Claims take a queue from its front, and then find nothing. -/
lemma claims_eq_takeD {ids : List (Fin 64)} (hmem : ∀ id, id ∈ ids ↔ p.Waits c id)
    (hsorted : ids.Pairwise p.Before) (n : Nat) :
    claims c n p = (ids.map fun id => UInt64.ofNat id.val).takeD n 0 := by
  induction ids generalizing p n with
  | nil =>
      rw [List.map_nil, List.takeD_nil]
      exact claims_of_idle (fun id hwaits => List.not_mem_nil ((hmem id).mpr hwaits)) n
  | cons first ids ih =>
      cases n with
      | zero => rfl
      | succ n =>
          obtain ⟨hlater, hrest⟩ := List.pairwise_cons.mp hsorted
          have hfirst : p.First c first := by
            refine ⟨(hmem first).mp List.mem_cons_self, fun other hwaits hne => ?_⟩
            exact hlater other ((List.mem_cons.mp ((hmem other).mpr hwaits)).resolve_left hne)
          obtain ⟨hvalue, hgranted⟩ := hfirst.claim
          have hleft (id : Fin 64) : id ∈ ids ↔ (p.claim c).2.Waits c id := by
            rw [hgranted.waits_iff, ← hmem, List.mem_cons]
            constructor
            · intro hid
              refine ⟨Or.inr hid, ?_⟩
              rintro rfl
              exact Before.irrefl p id (hlater id hid)
            · rintro ⟨hid, hne⟩
              exact hid.resolve_left hne
          rw [claims, hvalue, ih hleft (hrest.imp hgranted.before_iff.mpr)]
          rfl

/-- **Arbitration.**  In every state of the controller and for both contexts: a claim returns the
    first of the sources that wait, which it moves from the pending ones into service, and zero with
    no effect exactly if none waits.  A route leaves the line of a context up exactly if it was up
    before or a claim would now return a source.  And claims in a row return all sources that wait,
    each once and in order, and then zero. -/
theorem claims_follow_order (p : Plic) (c : Fin 2) :
    (∀ id : Fin 64, (p.claim c).1 = UInt64.ofNat id.val ∧ id.val ≠ 0 ↔ p.First c id) ∧
    ((p.claim c).1 = 0 ↔ ∀ id, ¬p.Waits c id) ∧
    (∀ id : Fin 64, p.First c id → p.Granted id (p.claim c).2) ∧
    ((∀ id, ¬p.Waits c id) → (p.claim c).2 = p) ∧
    (∀ lines : Lines, (lineOf c).In (p.route lines).2.mip ↔
      (lineOf c).In lines.mip ∨ ((p.route lines).1.claim c).1 ≠ 0) ∧
    (∀ id, id ∈ p.queue c ↔ p.Waits c id) ∧ (p.queue c).Nodup ∧ (p.queue c).Pairwise p.Before ∧
    ∀ n, claims c n p = ((p.queue c).map fun id => UInt64.ofNat id.val).takeD n 0 := by
  refine ⟨fun id => claim_eq_iff, claim_eq_zero_iff, fun id hfirst => hfirst.claim.2,
    fun hnone => ?_, in_route, fun id => mem_queue, p.nodup_queue c, p.pairwise_queue c,
    claims_eq_takeD (fun id => mem_queue) (p.pairwise_queue c)⟩
  rcases p.claim_cases c with ⟨-, hclaim⟩ | ⟨id, hfirst, -⟩
  · rw [hclaim]
  · exact absurd hnone hfirst.not_idle

/-- Sources 1, 10 and 11 are up and enabled for the supervisor, the last two with one urgency. -/
def contended : Plic :=
  Plic.new.after [.write 0x4 .word 1, .write 0x28 .word 3, .write 0x2C .word 3,
    .write 0x2080 .word 0xC02, .route { Lines.idle with sources := 0xC02 }]

/-- They are claimed by urgency and then by number, the supervisor's line is up, and machine level
    finds nothing. -/
theorem contended_claims :
    contended.First 1 10 ∧ contended.Granted 10 (contended.claim 1).2 ∧
    (∀ id, ¬contended.Waits 0 id) ∧ (contended.claim 0).2 = contended ∧
    contended.queue 1 = [10, 11, 1] ∧ claims 1 5 contended = [10, 11, 1, 0, 0] ∧
    Interrupt.supervisorExternal.In (contended.route Lines.idle).2.mip ∧
    ¬Interrupt.machineExternal.In (contended.route Lines.idle).2.mip := by
  obtain ⟨hclaim, -, hgranted, -, hroute, -, -, -, hclaims⟩ := claims_follow_order contended 1
  obtain ⟨-, hidle, -, hkept, hroute', -⟩ := claims_follow_order contended 0
  have hfirst : contended.First 1 10 := (hclaim 10).mp (by decide +kernel)
  have hnone : ∀ id, ¬contended.Waits 0 id := hidle.mp (by decide +kernel)
  have hqueue : contended.queue 1 = [10, 11, 1] := by decide +kernel
  have hanswers := hclaims 5
  rw [hqueue] at hanswers
  refine ⟨hfirst, hgranted 10 hfirst, hnone, hkept hnone, hqueue, hanswers, ?_, ?_⟩
  · exact (hroute Lines.idle).mpr (Or.inr (by decide +kernel))
  · rw [show Interrupt.machineExternal = lineOf 0 from rfl, hroute' Lines.idle]
    decide +kernel

end Rv64Board.Plic
