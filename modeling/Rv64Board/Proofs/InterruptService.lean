import Rv64Board.Proofs.AlignedReads
import Rv64Board.Proofs.BitSets

/-!
# The service of interrupts

A source that has come up waits in the pending set until software claims it, is then in service
until software completes it, and can come up again only after that.  Both contexts claim from one
set, a claim is the effect of a read, and either context may complete what the other has claimed;
the levels of the sources change at any time.

* `in_bitOf`, `in_iff_and` — the set of one source, and how a source is looked up in a set.
* `Plic.Op`, `Plic.after` — what can be done to a controller, and the controller after a row of such
  operations.
* `Plic.Claims`, `Plic.Op.Completes`, `Plic.Op.Raises` — what an operation means for a source.
* `apply_cases` — **what an operation does to the two sets.**  From it follow `Sound.apply`, the
  invariants, and the ways in and out of the sets: `claims_of_leaves`, `raises_of_enters`,
  `completes_of_leaves`.
* `exists_change` — where along a row of operations something ceases to hold.
-/

namespace Rv64Board.Plic

/-! ## Sets of sources -/

open Bits (In in_and in_or in_not eq_zero_iff)

variable {id id' : Fin 64} {a b : UInt64}

lemma toBitVec_bitOf (id : Fin 64) : (bitOf id).toBitVec = BitVec.twoPow 64 id.val := by
  apply BitVec.eq_of_toNat_eq
  have hid : id.val % 64 = id.val := Nat.mod_eq_of_lt id.isLt
  simp [bitOf, BitVec.toNat_twoPow, Nat.shiftLeft_eq, hid]

lemma in_bitOf : In id (bitOf id') ↔ id = id' := by
  rw [In, toBitVec_bitOf, BitVec.getLsbD_twoPow]
  simp [Fin.ext_iff, eq_comm]

lemma bitOf_zero : bitOf 0 = 1 := rfl

lemma in_one : In id 1 ↔ id = 0 := by
  rw [← bitOf_zero, in_bitOf]

/-- A source is in a set exactly if masking all others leaves something. -/
lemma in_iff_and : In id a ↔ a &&& bitOf id ≠ 0 := by
  rw [ne_eq, eq_zero_iff, not_forall_not]
  constructor
  · intro h
    exact ⟨id, in_and.mpr ⟨h, in_bitOf.mpr rfl⟩⟩
  · rintro ⟨other, hother⟩
    obtain ⟨hin, hsame⟩ := in_and.mp hother
    rwa [← in_bitOf.mp hsame]

lemma zero_in_iff : In 0 a ↔ a &&& 1 ≠ 0 := by
  rw [in_iff_and, bitOf_zero]

/-! ## Operations -/

/-- What software and the board can do to a controller. -/
inductive Op
  | read (offset : UInt64) (w : Width)
  | write (offset : UInt64) (w : Width) (value : UInt64)
  | route (lines : Lines)

def apply (p : Plic) : Op → Plic
  | .read offset w => (p.read offset w).device
  | .write offset w value => (p.write offset w value).device
  | .route lines => (p.route lines).1

/-- The controller after a row of operations. -/
def after (p : Plic) (ops : List Op) : Plic := ops.foldl apply p

lemma after_append (p : Plic) (ops later : List Op) :
    p.after (ops ++ later) = (p.after ops).after later :=
  List.foldl_append

/-- Where a context claims sources, and where it completes them. -/
def claimRegister (c : Fin 2) : UInt64 := 0x200004 + 0x1000 * UInt64.ofNat c.val

/-- An operation hands a source to a context: it reads a claim register, and the source comes
    back. -/
def Claims (p : Plic) (op : Op) (id : Fin 64) : Prop :=
  ∃ c w, op = .read (claimRegister c) w ∧ id.val ≠ 0 ∧
    (p.read (claimRegister c) w).value = UInt64.ofNat id.val

/-- An operation writes the number of a source to a claim register. -/
def Op.Completes (op : Op) (id : Fin 64) : Prop :=
  ∃ c w value, op = .write (claimRegister c) w value ∧ value.toUInt32 = UInt32.ofNat id.val

/-- An operation routes levels among which a source is up. -/
def Op.Raises (op : Op) (id : Fin 64) : Prop :=
  ∃ lines, op = .route lines ∧ In id lines.sources

/-! ## The registers -/

lemma locate_claimRegister (c : Fin 2) : locate (claimRegister c) = .claim c :=
  match c with
  | 0 => rfl
  | 1 => rfl

lemma eq_of_locateContext {distance : UInt64} {c : Fin 2} (h : locateContext distance = .claim c) :
    distance.toNat = 4 + 0x1000 * c.val := by
  rw [locateContext] at h
  split at h
  · split at h
    · cases h
    · split at h
      · next hfour =>
        cases h
        have hrest := congrArg UInt64.toNat hfour
        simp only [UInt64.toNat_mod, UInt64.reduceToNat] at hrest
        simp only [UInt64.toNat_div, UInt64.reduceToNat]
        omega
      · cases h
  · cases h

/-- There is one claim register for each context. -/
lemma eq_claimRegister {offset : UInt64} {c : Fin 2} (h : locate offset = .claim c) :
    offset = claimRegister c := by
  rw [locate] at h
  split at h
  · cases h
  · split at h
    · cases h
    · split at h
      · exact absurd h (locateEnable_ne_claim _ _)
      · split at h
        · next hbase =>
          have hdistance := eq_of_locateContext h
          have hle := UInt64.le_iff_toNat_le.mp hbase
          have hregister : (claimRegister c).toNat = 0x200004 + 0x1000 * c.val := by
            rw [claimRegister, UInt64.toNat_add, UInt64.toNat_mul, UInt64.toNat_ofNat']
            simp only [UInt64.reduceToNat]
            omega
          rw [UInt64.toNat_sub_of_le _ _ hbase] at hdistance
          simp only [UInt64.reduceToNat] at hdistance hle
          rw [← UInt64.toNat_inj, hregister]
          omega
        · cases h

/-! ## What an operation does -/

/-- The best source is one of those that are eligible. -/
lemma mem_of_foldl_moreUrgent {p : Plic} {row : List (Fin 64)} {best : Option (Fin 64)}
    (h : row.foldl p.moreUrgent best = some id) : id ∈ row ∨ best = some id := by
  induction row generalizing best with
  | nil => exact Or.inr h
  | cons first row ih =>
      rcases ih h with hin | hkept
      · exact Or.inl (List.mem_cons_of_mem _ hin)
      · have hwhich : id = first ∨ best = some id := by
          cases best with
          | none =>
              cases hkept
              exact Or.inl rfl
          | some best =>
              rw [moreUrgent] at hkept
              split at hkept <;> cases hkept
              · exact Or.inl rfl
              · exact Or.inr rfl
        refine hwhich.imp_left ?_
        rintro rfl
        exact List.mem_cons_self

lemma ne_zero_of_mem_sources (h : id ∈ sources) : id ≠ 0 := by
  rintro rfl
  exact absurd h (by decide)

lemma eligible_of_best {p : Plic} {c : Fin 2} (h : p.best? c = some id) :
    id ≠ 0 ∧ In id p.pending := by
  rcases mem_of_foldl_moreUrgent h with hin | hnone
  · obtain ⟨hsource, heligible⟩ := List.mem_filter.mp hin
    refine ⟨ne_zero_of_mem_sources hsource, ?_⟩
    rw [eligible, Bool.and_eq_true, bne_iff_ne] at heligible
    exact (in_and.mp (in_iff_and.mpr heligible.1)).1
  · cases hnone

lemma read_claimRegister (p : Plic) (c : Fin 2) (w : Width) :
    p.read (claimRegister c) w = ⟨(p.claim c).1, (p.claim c).2, none⟩ := by
  simp only [read, locate_claimRegister]

/-- Numbers of sources are told apart by 64 bits, and by 32. -/
lemma ofNat_inj (h : UInt64.ofNat id.val = UInt64.ofNat id'.val) : id = id' := by
  have hnat := congrArg UInt64.toNat h
  rw [UInt64.toNat_ofNat', UInt64.toNat_ofNat'] at hnat
  omega

/-- A context is granted a claim exactly if there is a source for it. -/
lemma claim_ne_zero_iff (p : Plic) (c : Fin 2) :
    (p.claim c).1 ≠ 0 ↔ (p.best? c).isSome = true := by
  rw [claim]
  cases hbest : p.best? c with
  | none => simp
  | some id =>
      have hid := (eligible_of_best hbest).1
      simp only [Option.isSome_some, iff_true]
      intro hzero
      exact hid (ofNat_inj hzero)

/-- A controller whose sets are as another's. -/
structure SameSets (p p' : Plic) : Prop where
  pending : p'.pending = p.pending
  inService : p'.inService = p.inService

/-- **What an operation does to the two sets.**  Nothing, or a claim moves a source from one to the
    other, or a completion takes one out of service, or a route takes in the sources that are up and
    not in service. -/
lemma apply_cases (p : Plic) (op : Op) :
    SameSets p (p.apply op) ∨
    (∃ id, p.Claims op id ∧ In id p.pending ∧ id ≠ 0 ∧
      p.apply op = { p with
        pending := p.pending &&& ~~~bitOf id, inService := p.inService ||| bitOf id }) ∨
    (∃ id, op.Completes id ∧ p.apply op = { p with inService := p.inService &&& ~~~bitOf id }) ∨
    (∃ lines, op = .route lines ∧ p.apply op =
      { p with pending := p.pending ||| (lines.sources &&& ~~~p.inService &&& ~~~1) }) := by
  cases op with
  | route lines => exact Or.inr (Or.inr (Or.inr ⟨lines, rfl, rfl⟩))
  | read offset w =>
      cases hat : locate offset with
      | claim c =>
          obtain rfl := eq_claimRegister hat
          rw [apply, read_claimRegister, claim]
          split
          · exact Or.inl ⟨rfl, rfl⟩
          · next id hbest =>
            obtain ⟨hne, hpending⟩ := eligible_of_best hbest
            have hnonzero : id.val ≠ 0 := fun hzero => hne (Fin.ext hzero)
            refine Or.inr (Or.inl ⟨id, ⟨c, w, rfl, hnonzero, ?_⟩, hpending, hne, rfl⟩)
            rw [read_claimRegister, claim, hbest]
      | priority | pending | enable | unusedEnable | threshold | unknown =>
          simp only [apply, read, hat]
          exact Or.inl ⟨rfl, rfl⟩
  | write offset w value =>
      cases hat : locate offset with
      | claim c =>
          obtain rfl := eq_claimRegister hat
          simp only [apply, write, hat, complete]
          split
          · next hsource =>
            refine Or.inr (Or.inr (Or.inl ⟨⟨value.toUInt32.toNat, hsource.2⟩,
              ⟨c, w, value, rfl, ?_⟩, rfl⟩))
            exact UInt32.ofNat_toNat.symm
          · exact Or.inl ⟨rfl, rfl⟩
      | priority source =>
          simp only [apply, write, hat]
          split <;> exact Or.inl ⟨rfl, rfl⟩
      | pending | enable | unusedEnable | threshold | unknown =>
          simp only [apply, write, hat]
          exact Or.inl ⟨rfl, rfl⟩

/-! ## Invariants -/

/-- What always holds of the way a controller is set up: source 0 is neither enabled nor urgent, and
    urgencies have three bits. -/
structure WellSetUp (p : Plic) : Prop where
  enable : ∀ context ∈ p.contexts, context.enable &&& 1 = 0
  threshold : ∀ context ∈ p.contexts, context.threshold ≤ 7
  priority : ∀ urgency ∈ p.priority, urgency ≤ 7
  none : p.priority[0]? = some 0

/-- What always holds of a controller: moreover, no source is both pending and in service, and
    source 0 is neither. -/
structure Sound (p : Plic) : Prop extends WellSetUp p where
  apart : p.pending &&& p.inService = 0
  pending : p.pending &&& 1 = 0
  inService : p.inService &&& 1 = 0

lemma and_seven_le (value : UInt64) : value &&& 7 ≤ 7 := by
  rw [UInt64.le_iff_toNat_le, UInt64.toNat_and]
  exact Nat.and_le_right

lemma wellSetUp_new : new.WellSetUp where
  enable := by simp [new]
  threshold := by simp [new]
  priority := by simp [new]
  none := by simp [new]

namespace WellSetUp

variable {p : Plic}

lemma setContext (hp : p.WellSetUp) (c : Fin 2) {context : PlicContext}
    (henable : context.enable &&& 1 = 0) (hthreshold : context.threshold ≤ 7) :
    (p.setContext c context).WellSetUp where
  enable other hother := by
    have hother : other ∈ p.contexts.set c context := hother
    rcases Vector.mem_or_eq_of_mem_set hother with hold | rfl
    · exact hp.enable other hold
    · exact henable
  threshold other hother := by
    have hother : other ∈ p.contexts.set c context := hother
    rcases Vector.mem_or_eq_of_mem_set hother with hold | rfl
    · exact hp.threshold other hold
    · exact hthreshold
  priority := hp.priority
  none := hp.none

/-- Only writes to priorities, masks and thresholds change how a controller is set up. -/
lemma apply (hp : p.WellSetUp) (op : Op) : (p.apply op).WellSetUp := by
  cases op with
  | route lines => exact ⟨hp.enable, hp.threshold, hp.priority, hp.none⟩
  | read offset w =>
      simp only [Plic.apply, Plic.read]
      split
      case h_6 c _ =>
        rw [claim]
        split
        · exact hp
        · exact ⟨hp.enable, hp.threshold, hp.priority, hp.none⟩
      all_goals exact hp
  | write offset w value =>
      simp only [Plic.apply, Plic.write]
      split
      · next id _ =>
        split
        · exact hp
        · next hne =>
          refine ⟨hp.enable, hp.threshold, fun urgency hurgency => ?_, ?_⟩
          · have hurgency : urgency ∈ p.priority.set id (value &&& 7) := hurgency
            rcases Vector.mem_or_eq_of_mem_set hurgency with hold | rfl
            · exact hp.priority urgency hold
            · exact and_seven_le value
          · have hother : id.val ≠ 0 := fun hzero => hne (Fin.ext hzero)
            rw [Vector.getElem?_set_ne _ hother]
            exact hp.none
      · exact hp
      · exact hp
      · next c distance _ =>
        have hthreshold := hp.threshold p.contexts[c] (Vector.getElem_mem c.isLt)
        refine hp.setContext c (eq_zero_iff.mpr fun source => ?_) hthreshold
        rw [in_and, in_and, in_not]
        exact fun hin => hin.1.2 hin.2
      · next c _ =>
        have henable := hp.enable p.contexts[c] (Vector.getElem_mem c.isLt)
        exact hp.setContext c henable (and_seven_le value)
      · rw [complete]
        split
        · exact ⟨hp.enable, hp.threshold, hp.priority, hp.none⟩
        · exact hp
      · exact hp

end WellSetUp

namespace Sound

variable {p : Plic}

lemma not_inService (hp : p.Sound) (h : In id p.pending) : ¬In id p.inService := fun hserved =>
  eq_zero_iff.mp hp.apart id (in_and.mpr ⟨h, hserved⟩)

lemma not_pending_zero (hp : p.Sound) : ¬In 0 p.pending := fun hin =>
  zero_in_iff.mp hin hp.pending

lemma not_inService_zero (hp : p.Sound) : ¬In 0 p.inService := fun hin =>
  zero_in_iff.mp hin hp.inService

/-- The conditions on the two sets, source by source. -/
lemma of_sets (hp : p.WellSetUp) (happart : ∀ id, In id p.pending → ¬In id p.inService)
    (hpending : ¬In 0 p.pending) (hserved : ¬In 0 p.inService) : p.Sound where
  toWellSetUp := hp
  apart := eq_zero_iff.mpr fun id hboth => happart id (in_and.mp hboth).1 (in_and.mp hboth).2
  pending := not_not.mp (mt zero_in_iff.mpr hpending)
  inService := not_not.mp (mt zero_in_iff.mpr hserved)

lemma new : Plic.new.Sound where
  toWellSetUp := wellSetUp_new
  apart := rfl
  pending := rfl
  inService := rfl

/-- **Every operation keeps the invariants.** -/
lemma apply (hp : p.Sound) (op : Op) : (p.apply op).Sound := by
  have hsetUp := hp.toWellSetUp.apply op
  rcases apply_cases p op with hsame | ⟨id, -, -, hne, heq⟩ | ⟨id, -, heq⟩ | ⟨lines, -, heq⟩
  · refine of_sets hsetUp (fun id hin => ?_) ?_ ?_
    · rw [hsame.pending] at hin
      rw [hsame.inService]
      exact hp.not_inService hin
    · rw [hsame.pending]
      exact hp.not_pending_zero
    · rw [hsame.inService]
      exact hp.not_inService_zero
  · rw [heq] at hsetUp ⊢
    refine of_sets hsetUp (fun other hin => ?_) (fun hin => ?_) fun hin => ?_
    · obtain ⟨hin, hother⟩ := in_and.mp hin
      rw [in_not] at hother
      rw [in_or, not_or]
      exact ⟨hp.not_inService hin, hother⟩
    · exact hp.not_pending_zero (in_and.mp hin).1
    · rcases in_or.mp hin with hin | hin
      · exact hp.not_inService_zero hin
      · exact hne (in_bitOf.mp hin).symm
  · rw [heq] at hsetUp ⊢
    exact of_sets hsetUp (fun other hin hserved => hp.not_inService hin (in_and.mp hserved).1)
      hp.not_pending_zero fun hin => hp.not_inService_zero (in_and.mp hin).1
  · rw [heq] at hsetUp ⊢
    refine of_sets hsetUp (fun other hin => ?_) (fun hin => ?_) hp.not_inService_zero
    · rcases in_or.mp hin with hin | hin
      · exact hp.not_inService hin
      · exact in_not.mp (in_and.mp (in_and.mp hin).1).2
    · rcases in_or.mp hin with hin | hin
      · exact hp.not_pending_zero hin
      · exact in_not.mp (in_and.mp hin).2 (in_one.mpr rfl)

lemma after (hp : p.Sound) (ops : List Op) : (p.after ops).Sound := by
  induction ops generalizing p with
  | nil => exact hp
  | cons op ops ih => exact ih (hp.apply op)

end Sound

/-! ## Ways in and out of the sets -/

variable {p : Plic} {op : Op}

/-- A source leaves the pending set only by a claim that returns it. -/
lemma claims_of_leaves (h : In id p.pending) (hleft : ¬In id (p.apply op).pending) :
    p.Claims op id := by
  rcases apply_cases p op with hsame | ⟨claimed, hclaims, -, -, heq⟩ | ⟨_, -, heq⟩ | ⟨_, -, heq⟩
  · exact absurd (hsame.pending ▸ h) hleft
  · rw [heq, in_and, in_not, in_bitOf, not_and_not_right] at hleft
    rwa [hleft h]
  · rw [heq] at hleft
    exact absurd h hleft
  · rw [heq, in_or] at hleft
    exact absurd (Or.inl h) hleft

/-- A source enters the pending set only by a route in which it is up. -/
lemma raises_of_enters (h : ¬In id p.pending) (hentered : In id (p.apply op).pending) :
    op.Raises id := by
  rcases apply_cases p op with hsame | ⟨_, -, -, -, heq⟩ | ⟨_, -, heq⟩ | ⟨lines, hroute, heq⟩
  · exact absurd (hsame.pending ▸ hentered) h
  · rw [heq, in_and] at hentered
    exact absurd hentered.1 h
  · rw [heq] at hentered
    exact absurd hentered h
  · rw [heq, in_or] at hentered
    rcases hentered with hin | hin
    · exact absurd hin h
    · exact ⟨lines, hroute, (in_and.mp (in_and.mp hin).1).1⟩

/-- A source leaves service only by its completion. -/
lemma completes_of_leaves (h : In id p.inService) (hleft : ¬In id (p.apply op).inService) :
    op.Completes id := by
  rcases apply_cases p op with hsame | ⟨_, -, -, -, heq⟩ | ⟨done, hdone, heq⟩ | ⟨_, -, heq⟩
  · exact absurd (hsame.inService ▸ h) hleft
  · rw [heq, in_or] at hleft
    exact absurd (Or.inl h) hleft
  · rw [heq, in_and, in_not, in_bitOf, not_and_not_right] at hleft
    rwa [hleft h]
  · rw [heq] at hleft
    exact absurd h hleft

/-- A claim finds its source pending, and puts it into service. -/
lemma inService_of_claims (h : p.Claims op id) :
    In id p.pending ∧ In id (p.apply op).inService := by
  obtain ⟨c, w, rfl, hne, hvalue⟩ := h
  rw [read_claimRegister, claim] at hvalue
  rw [apply, read_claimRegister, claim]
  cases hbest : p.best? c with
  | none =>
      rw [hbest] at hvalue
      have hzero : UInt64.ofNat id.val = UInt64.ofNat (0 : Fin 64).val := hvalue.symm
      exact absurd (congrArg Fin.val (ofNat_inj hzero)) hne
  | some best =>
      rw [hbest] at hvalue
      obtain rfl := ofNat_inj hvalue
      exact ⟨(eligible_of_best hbest).2, in_or.mpr (Or.inr (in_bitOf.mpr rfl))⟩

/-- Along a row of operations, something that ceases to hold does so at one of them. -/
lemma exists_change {P : Plic → Prop} {ops : List Op} (h : P p) (hend : ¬P (p.after ops)) :
    ∃ earlier op later, ops = earlier ++ op :: later ∧ P (p.after earlier) ∧
      ¬P ((p.after earlier).apply op) := by
  induction ops generalizing p with
  | nil => exact absurd h hend
  | cons op ops ih =>
      by_cases hnext : P (p.apply op)
      · obtain ⟨earlier, change, later, rfl, hbefore, hafter⟩ := ih hnext hend
        exact ⟨op :: earlier, change, later, rfl, hbefore, hafter⟩
      · exact ⟨[], op, ops, rfl, h, hnext⟩

/-- **A source in service becomes pending again only after a completion and then a route in which it
    is up.** -/
lemma completed_and_raised {ops : List Op} (hp : p.Sound) (h : In id p.inService)
    (hagain : In id (p.after ops).pending) :
    ∃ first done second high third, ops = first ++ done :: (second ++ high :: third) ∧
      done.Completes id ∧ high.Raises id := by
  obtain ⟨first, done, rest, rfl, hserved, hleft⟩ :=
    exists_change (P := fun p => In id p.inService) h
    ((hp.after ops).not_inService hagain)
  have hdone := completes_of_leaves hserved hleft
  have hwaits : ¬In id (p.after first).pending := fun hin =>
    (hp.after first).not_inService hin hserved
  have hidle : ¬In id ((p.after first).apply done).pending := by
    intro hin
    obtain ⟨lines, hroute, -⟩ := raises_of_enters hwaits hin
    obtain ⟨c, w, value, hwrite, -⟩ := hdone
    cases hroute.symm.trans hwrite
  rw [after_append] at hagain
  obtain ⟨second, high, third, rfl, hbefore, hentered⟩ :=
    exists_change (P := fun p => ¬In id p.pending) hidle (not_not.mpr hagain)
  exact ⟨first, done, second, high, third, rfl, hdone,
    raises_of_enters hbefore (not_not.mp hentered)⟩

/-- **The discipline of service.**  After any operations on a new controller the invariants hold: no
    source is both pending and in service, source 0 is in neither set and never enabled, and
    urgencies have three bits, those of source 0 none.  A source that is pending stays so until a
    claim returns it.  And after a claim has returned a source, another one, of whichever context,
    returns it only after a completion of the source followed by a route in which it is up. -/
theorem service_discipline (ops : List Op) :
    (Plic.new.after ops).Sound ∧
    (∀ id later, In id (Plic.new.after ops).pending →
      ¬In id (Plic.new.after (ops ++ later)).pending →
      ∃ earlier claim rest, later = earlier ++ claim :: rest ∧
        (Plic.new.after (ops ++ earlier)).Claims claim id) ∧
    (∀ id claim between again, (Plic.new.after ops).Claims claim id →
      (Plic.new.after (ops ++ claim :: between)).Claims again id →
      ∃ first done second high third, between = first ++ done :: (second ++ high :: third) ∧
        done.Completes id ∧ high.Raises id) := by
  have hsound := Sound.new.after ops
  refine ⟨hsound, fun id later hpending hleft => ?_, fun id claim between again hclaim hagain => ?_⟩
  · rw [after_append] at hleft
    obtain ⟨earlier, claim, rest, rfl, hbefore, hafter⟩ :=
      exists_change (P := fun p => In id p.pending) hpending hleft
    refine ⟨earlier, claim, rest, rfl, ?_⟩
    rw [after_append]
    exact claims_of_leaves hbefore hafter
  · have hpending := (inService_of_claims hagain).1
    rw [after_append] at hpending
    exact completed_and_raised (hsound.apply claim) (inService_of_claims hclaim).2 hpending

/-- Source 10 is enabled for both contexts, and up. -/
def sharedSetup : List Op :=
  [.write 0x28 .word 1, .write 0x2000 .word 0x400, .write 0x2080 .word 0x400,
    .route { Lines.idle with sources := 0x400 }]

/-- The one context completes what the other has claimed, and claims it when it is up again. -/
def sharedHandover : List Op :=
  [.write 0x201004 .word 10, .read 0x1000 .word,
    .route { Lines.idle with sources := 0x400 }]

/-- Context 0 claims the source, context 1 completes it and claims it again. -/
theorem shared_source_discipline :
    In 10 (Plic.new.after sharedSetup).pending ∧
    ¬In 10 (Plic.new.after (sharedSetup ++ [.read (claimRegister 0) .word])).pending ∧
    (Plic.new.after sharedSetup).Claims (.read (claimRegister 0) .word) 10 ∧
    (Plic.new.after (sharedSetup ++ .read (claimRegister 0) .word :: sharedHandover)).Claims
      (.read (claimRegister 1) .byte) 10 ∧
    (∃ earlier claim rest, [.read (claimRegister 0) .word] = earlier ++ claim :: rest ∧
      (Plic.new.after (sharedSetup ++ earlier)).Claims claim 10) ∧
    ∃ first done second high third, sharedHandover = first ++ done :: (second ++ high :: third) ∧
      done.Completes 10 ∧ high.Raises 10 := by
  have hpending : In 10 (Plic.new.after sharedSetup).pending := by decide +kernel
  have hleft :
      ¬In 10 (Plic.new.after (sharedSetup ++ [.read (claimRegister 0) .word])).pending := by
    decide +kernel
  have hclaim : (Plic.new.after sharedSetup).Claims (.read (claimRegister 0) .word) 10 :=
    ⟨0, .word, rfl, by decide, by decide +kernel⟩
  have hagain : (Plic.new.after (sharedSetup ++ .read (claimRegister 0) .word ::
      sharedHandover)).Claims (.read (claimRegister 1) .byte) 10 :=
    ⟨1, .byte, rfl, by decide, by decide +kernel⟩
  obtain ⟨-, hstays, honce⟩ := service_discipline sharedSetup
  exact ⟨hpending, hleft, hclaim, hagain, hstays 10 _ hpending hleft, honce 10 _ _ _ hclaim hagain⟩

end Rv64Board.Plic
