import Mathlib.Data.List.Perm.Basic
import Rv64Board.Proofs.StandardBoard
import Rv64Board.Proofs.Sv39

/-!
# The map of addresses is sound

Devices are mapped one after the other, each at a range of addresses of its own.  The bus looks at
one region when it checks a new range and at one region when it routes an access, the nearest that
starts below.  Both are right because of an invariant.

* `Span` — a range of addresses, with what it covers.
* `Bus.WellMapped` — the invariant: the regions are in order, none is empty, and no two of them
  meet, nor one of them and memory.
* `register_eq_ok_iff` — a range is accepted **exactly if it shares no address** with memory or a
  region, and the invariant is kept (`WellMapped.register`).
* `Bus.registerAll` — a row of calls, of which some may be refused.
* `registerAll_perm` — the order of the calls makes no difference.
* `Bus.Routed` — where an access goes, with `WellMapped.routed` for every bus with the invariant.
-/

namespace Rv64Board

/-! ## Ranges of addresses -/

/-- The addresses from `low` up to but not including `high`. -/
structure Span where
  low : Nat
  high : Nat

namespace Span

variable {s t : Span}

def Covers (s : Span) (a : Nat) : Prop := s.low ≤ a ∧ a < s.high

/-- One range ends before the other starts. -/
def Apart (s t : Span) : Prop := s.high ≤ t.low ∨ t.high ≤ s.low

lemma Apart.symm (h : s.Apart t) : t.Apart s := Or.symm h

/-- Two ranges share no address exactly if they are apart, unless one of them is empty. -/
lemma apart_iff (hs : s.low < s.high) (ht : t.low < t.high) :
    s.Apart t ↔ ∀ a, s.Covers a → ¬t.Covers a := by
  constructor
  · rintro (h | h) a ⟨hsl, hsh⟩ ⟨htl, hth⟩
    · omega
    · omega
  · intro h
    by_contra hmeet
    rw [Apart, not_or] at hmeet
    -- then the larger of the two starts is in both
    exact h (max s.low t.low) ⟨by omega, by omega⟩ ⟨by omega, by omega⟩

lemma covers_all_iff {a len : Nat} (hlen : 0 < len) :
    (∀ k < len, s.Covers (a + k)) ↔ s.low ≤ a ∧ a + len ≤ s.high := by
  constructor
  · intro h
    have hfirst := h 0 hlen
    have hlast := h (len - 1) (by omega)
    simp only [Covers] at hfirst hlast
    omega
  · rintro ⟨hlow, hhigh⟩ k hk
    exact ⟨by omega, by omega⟩

end Span

def Memory.span (m : Memory) : Span := ⟨m.base.toNat, m.base.toNat + m.size.toNat⟩

def Region.span (r : Region) : Span := ⟨r.base.toNat, r.limit.toNat⟩

/-- A call that maps a device. -/
structure Mapping where
  name : String
  base : UInt64
  size : UInt64
  device : Device

namespace Mapping

def span (m : Mapping) : Span := ⟨m.base.toNat, m.base.toNat + m.size.toNat⟩

/-- The region that comes of it. -/
def region (m : Mapping) : Region := ⟨m.name, m.base, m.base + m.size, m.device⟩

lemma span_region {m : Mapping} (hm : m.span.high < 2 ^ 64) : m.region.span = m.span := by
  have hhigh : m.base.toNat + m.size.toNat < 2 ^ 64 := hm
  rw [Region.span, region, UInt64.toNat_add, Nat.mod_eq_of_lt hhigh]
  rfl

lemma span_nonempty {m : Mapping} : m.span.low < m.span.high ↔ m.size ≠ 0 := by
  rw [Ne, ← UInt64.toNat_inj]
  show m.base.toNat < m.base.toNat + m.size.toNat ↔ ¬m.size.toNat = 0
  omega

end Mapping

namespace Bus

/-! ## The invariant -/

/-- Memory and regions are not empty and do not meet, and the regions are in order. -/
structure WellMapped (b : Bus) : Prop where
  memory : b.ram.span.low < b.ram.span.high
  memoryEnd : b.ram.span.high < 2 ^ 64
  nonempty : ∀ r ∈ b.regions, r.span.low < r.span.high
  ordered : b.regions.Pairwise fun r s => r.span.high ≤ s.span.low
  apart : ∀ r ∈ b.regions, r.span.Apart b.ram.span

lemma wellMapped_ofMemory {ram : Memory} (hsize : ram.size ≠ 0) (hend : ram.span.high < 2 ^ 64) :
    (ofMemory ram).WellMapped where
  memory := by
    rw [Ne, ← UInt64.toNat_inj] at hsize
    show ram.base.toNat < ram.base.toNat + ram.size.toNat
    have hzero : (0 : UInt64).toNat = 0 := rfl
    omega
  memoryEnd := hend
  nonempty := by simp [ofMemory]
  ordered := List.Pairwise.nil
  apart := by simp [ofMemory]

variable {b b' : Bus} {regions : List Region} {r : Region}

/-- Of the regions that a test picks, the last lies above all others. -/
lemma mem_of_getLast?_filter {p : Region → Bool}
    (hordered : regions.Pairwise fun r s => r.span.high ≤ s.span.low)
    (hlast : (regions.filter p).getLast? = some r) :
    r ∈ regions ∧ p r = true ∧
      ∀ s ∈ regions, p s = true → s = r ∨ s.span.high ≤ r.span.low := by
  obtain ⟨below, hsplit⟩ := List.getLast?_eq_some_iff.mp hlast
  have hmem : r ∈ regions.filter p := by simp [hsplit]
  refine ⟨(List.mem_filter.mp hmem).1, (List.mem_filter.mp hmem).2, ?_⟩
  intro s hs hpick
  have hpicked : s ∈ below ++ [r] := hsplit ▸ List.mem_filter.mpr ⟨hs, hpick⟩
  have hpairs := hordered.filter p
  rw [hsplit, List.pairwise_append] at hpairs
  rcases List.mem_append.mp hpicked with hbelow | hhere
  · exact Or.inr (hpairs.2.2 s hbelow r (List.mem_singleton_self r))
  · exact Or.inl (List.mem_singleton.mp hhere)

lemma not_of_getLast?_filter {p : Region → Bool} (hlast : (regions.filter p).getLast? = none) :
    ∀ s ∈ regions, p s = false := by
  rw [List.getLast?_eq_none_iff, List.filter_eq_nil_iff] at hlast
  intro s hs
  simpa using hlast s hs

/-! ## Mapping a device -/

/-- **Looking at one region is enough:** the last that starts below the end of the range.  Those
    below it end before it starts. -/
lemma apart_regions_iff (hnonempty : ∀ r ∈ regions, r.span.low < r.span.high)
    (hordered : regions.Pairwise fun r s => r.span.high ≤ s.span.low) {low : Nat}
    {limit : UInt64} :
    (∀ r ∈ regions, Span.Apart ⟨low, limit.toNat⟩ r.span) ↔
      ∀ r, lastBelow? regions limit = some r → r.span.high ≤ low := by
  constructor
  · intro hapart r hlast
    obtain ⟨hr, hpick, _⟩ := mem_of_getLast?_filter hordered hlast
    have hstart : r.span.low < limit.toNat := UInt64.lt_iff_toNat_lt.mp (of_decide_eq_true hpick)
    have hr₀ := hnonempty r hr
    rcases hapart r hr with h | h <;> simp only at h <;> omega
  · intro hnearest s hs
    by_cases hstart : s.base < limit
    · cases hlast : lastBelow? regions limit with
      | none =>
          have hpick := not_of_getLast?_filter hlast s hs
          exact absurd hstart (of_decide_eq_false hpick)
      | some r =>
          obtain ⟨hr, _, hbelow⟩ := mem_of_getLast?_filter hordered hlast
          have hend := hnearest r hlast
          have hr₀ := hnonempty r hr
          rcases hbelow s hs (decide_eq_true hstart) with rfl | hless
          · exact Or.inr hend
          · refine Or.inr ?_
            show s.span.high ≤ low
            omega
    · rw [UInt64.lt_iff_toNat_lt, Nat.not_lt] at hstart
      exact Or.inl hstart

lemma overlapped?_eq_none_iff (hb : b.WellMapped) {base limit : UInt64} :
    b.overlapped? base limit = none ↔
      Span.Apart ⟨base.toNat, limit.toNat⟩ b.ram.span ∧
        ∀ r ∈ b.regions, Span.Apart ⟨base.toNat, limit.toNat⟩ r.span := by
  have hend : (b.ram.base + b.ram.size).toNat = b.ram.span.high := by
    rw [UInt64.toNat_add]
    exact Nat.mod_eq_of_lt hb.memoryEnd
  have hmemory : (base < b.ram.base + b.ram.size ∧ b.ram.base < limit) ↔
      ¬Span.Apart ⟨base.toNat, limit.toNat⟩ b.ram.span := by
    rw [UInt64.lt_iff_toNat_lt, UInt64.lt_iff_toNat_lt, hend, Span.Apart]
    simp only [Memory.span]
    omega
  rw [apart_regions_iff hb.nonempty hb.ordered, overlapped?]
  split
  · next hover => simp [hmemory.mp hover]
  · next hfree =>
    rw [hmemory, not_not] at hfree
    cases lastBelow? b.regions limit with
    | none => simp [hfree]
    | some r => simp [hfree, Region.span, UInt64.le_iff_toNat_le]

/-- A range that a device can be mapped at. -/
structure Free (b : Bus) (m : Mapping) : Prop where
  nonempty : m.span.low < m.span.high
  fits : m.span.high < 2 ^ 64
  memory : m.span.Apart b.ram.span
  regions : ∀ r ∈ b.regions, m.span.Apart r.span

/-- **A device is mapped exactly where nothing is.** -/
lemma register_eq_ok_iff (hb : b.WellMapped) {m : Mapping} :
    b.register m.name m.base m.size m.device = .ok b' ↔
      b.Free m ∧ b' = { b with regions := insertRegion m.region b.regions } := by
  by_cases hshape : m.size = 0 ∨ UInt64.size ≤ m.base.toNat + m.size.toNat
  · rw [register, if_pos hshape]
    constructor
    · intro h
      cases h
    · rintro ⟨hfree, _⟩
      rcases hshape with hzero | hover
      · exact absurd hzero (Mapping.span_nonempty.mp hfree.nonempty)
      · exact absurd hfree.fits (Nat.not_lt.mpr hover)
  · rw [not_or, Nat.not_le] at hshape
    obtain ⟨hsize, hfits⟩ := hshape
    have hnonempty := Mapping.span_nonempty.mpr hsize
    have hlimit : (m.base + m.size).toNat = m.span.high := by
      rw [UInt64.toNat_add]
      exact Nat.mod_eq_of_lt hfits
    have hfree : b.overlapped? m.base (m.base + m.size) = none ↔
        m.span.Apart b.ram.span ∧ ∀ r ∈ b.regions, m.span.Apart r.span := by
      rw [overlapped?_eq_none_iff hb, hlimit]
      rfl
    constructor
    · intro h
      obtain ⟨rfl, hnone⟩ := register_eq_ok h
      obtain ⟨hmemory, hregions⟩ := hfree.mp hnone
      exact ⟨⟨hnonempty, hfits, hmemory, hregions⟩, rfl⟩
    · rintro ⟨hm, rfl⟩
      have hnone := hfree.mpr ⟨hm.memory, hm.regions⟩
      rw [register, if_neg (not_or.mpr ⟨hsize, Nat.not_le.mpr hfits⟩), hnone]
      rfl

lemma insertRegion_perm (new : Region) (regions : List Region) :
    (insertRegion new regions).Perm (new :: regions) := by
  induction regions with
  | nil => exact List.Perm.refl _
  | cons r regions ih =>
      rw [insertRegion]
      split
      · exact List.Perm.refl _
      · exact (ih.cons r).trans (List.Perm.swap new r regions)

lemma ordered_insertRegion {new : Region} (hnew : new.span.low < new.span.high)
    (hnonempty : ∀ r ∈ regions, r.span.low < r.span.high)
    (hordered : regions.Pairwise fun r s => r.span.high ≤ s.span.low)
    (hapart : ∀ r ∈ regions, new.span.Apart r.span) :
    (insertRegion new regions).Pairwise fun r s => r.span.high ≤ s.span.low := by
  induction regions with
  | nil => simp [insertRegion]
  | cons r regions ih =>
      have hr := hnonempty r List.mem_cons_self
      have hmeet := hapart r List.mem_cons_self
      obtain ⟨hfirst, hrest⟩ := List.pairwise_cons.mp hordered
      rw [insertRegion]
      split
      · next hbefore =>
        -- the new region ends before `r`, and so before all that follow `r`
        have hstart : new.span.low < r.span.low := UInt64.lt_iff_toNat_lt.mp hbefore
        have hend : new.span.high ≤ r.span.low := by
          rcases hmeet with h | h <;> omega
        refine List.pairwise_cons.mpr ⟨?_, hordered⟩
        intro s hs
        rcases List.mem_cons.mp hs with rfl | hs
        · exact hend
        · have hnext := hfirst s hs
          omega
      · next hafter =>
        have hstart : r.span.low ≤ new.span.low := by
          rw [UInt64.lt_iff_toNat_lt] at hafter
          exact Nat.le_of_not_lt hafter
        have hend : r.span.high ≤ new.span.low := by
          rcases hmeet with h | h <;> omega
        refine List.pairwise_cons.mpr ⟨?_, ?_⟩
        · intro s hs
          rcases List.mem_cons.mp ((insertRegion_perm new regions).mem_iff.mp hs) with rfl | hs
          · exact hend
          · exact hfirst s hs
        · exact ih (fun s hs => hnonempty s (List.mem_cons_of_mem r hs)) hrest
            fun s hs => hapart s (List.mem_cons_of_mem r hs)

/-- **A device that is mapped keeps the invariant.** -/
lemma WellMapped.insert (hb : b.WellMapped) {m : Mapping} (hm : b.Free m) :
    WellMapped { b with regions := insertRegion m.region b.regions } := by
  have hspan := Mapping.span_region hm.fits
  have hmem (r : Region) (hr : r ∈ insertRegion m.region b.regions) :
      r = m.region ∨ r ∈ b.regions :=
    List.mem_cons.mp ((insertRegion_perm m.region b.regions).mem_iff.mp hr)
  refine ⟨hb.memory, hb.memoryEnd, ?_, ?_, ?_⟩
  · intro r hr
    rcases hmem r hr with rfl | hr
    · rw [hspan]
      exact hm.nonempty
    · exact hb.nonempty r hr
  · refine ordered_insertRegion ?_ hb.nonempty hb.ordered ?_
    · rw [hspan]
      exact hm.nonempty
    · rw [hspan]
      exact hm.regions
  · intro r hr
    rcases hmem r hr with rfl | hr
    · rw [hspan]
      exact hm.memory
    · exact hb.apart r hr

/-- A range is free exactly if it shares no address with memory or a region. -/
lemma free_iff (hb : b.WellMapped) {m : Mapping} (hsize : m.size ≠ 0)
    (hfits : m.span.high < 2 ^ 64) :
    b.Free m ↔
      ∀ a, m.span.Covers a → ¬b.ram.span.Covers a ∧ ∀ r ∈ b.regions, ¬r.span.Covers a := by
  have hm := Mapping.span_nonempty.mpr hsize
  constructor
  · intro hfree a ha
    refine ⟨(Span.apart_iff hm hb.memory).mp hfree.memory a ha, ?_⟩
    intro r hr
    exact (Span.apart_iff hm (hb.nonempty r hr)).mp (hfree.regions r hr) a ha
  · intro h
    refine ⟨hm, hfits, ?_, ?_⟩
    · exact (Span.apart_iff hm hb.memory).mpr fun a ha => (h a ha).1
    · intro r hr
      exact (Span.apart_iff hm (hb.nonempty r hr)).mpr fun a ha => (h a ha).2 r hr

/-! ## A row of calls -/

/-- Maps devices one after the other.  A call that is refused is passed over; those that succeed are
    listed. -/
def registerAll (b : Bus) : List Mapping → Bus × List Mapping
  | [] => (b, [])
  | m :: calls =>
    match b.register m.name m.base m.size m.device with
    | .ok b => ((b.registerAll calls).1, m :: (b.registerAll calls).2)
    | .error _ => b.registerAll calls

lemma registerAll_append (calls calls' : List Mapping) (b : Bus) :
    b.registerAll (calls ++ calls') =
      (((b.registerAll calls).1.registerAll calls').1,
        (b.registerAll calls).2 ++ ((b.registerAll calls).1.registerAll calls').2) := by
  induction calls generalizing b with
  | nil => rfl
  | cons m calls ih =>
      simp only [List.cons_append, registerAll]
      split <;> simp [ih]

/-- What the calls of a row have done to a bus. -/
structure Gained (b : Bus) (done : List Mapping) (c : Bus) : Prop where
  wellMapped : c.WellMapped
  ram : c.ram = b.ram
  journal : c.journal = b.journal
  regions : c.regions.Perm (done.map Mapping.region ++ b.regions)
  spans : ∀ m ∈ done, m.region.span = m.span

lemma gained_registerAll (hb : b.WellMapped) (calls : List Mapping) :
    b.Gained (b.registerAll calls).2 (b.registerAll calls).1 := by
  induction calls generalizing b with
  | nil =>
      refine ⟨hb, rfl, rfl, List.Perm.refl _, ?_⟩
      simp [registerAll]
  | cons m calls ih =>
      rw [registerAll]
      split
      · next b₁ hok =>
        obtain ⟨hfree, rfl⟩ := (register_eq_ok_iff hb).mp hok
        have hrest := ih (hb.insert hfree)
        refine ⟨hrest.wellMapped, hrest.ram, hrest.journal, ?_, ?_⟩
        · refine hrest.regions.trans ?_
          refine ((insertRegion_perm m.region b.regions).append_left _).trans ?_
          exact List.perm_middle
        · intro m' hm'
          rcases List.mem_cons.mp hm' with rfl | hm'
          · exact Mapping.span_region hfree.fits
          · exact hrest.spans m' hm'
      · exact ih hb

/-- **Ranges that are free and do not meet are all accepted.** -/
lemma registerAll_all {calls : List Mapping} (hb : b.WellMapped)
    (hfree : ∀ m ∈ calls, b.Free m) (hapart : calls.Pairwise fun m m' => m.span.Apart m'.span) :
    (b.registerAll calls).2 = calls := by
  induction calls generalizing b with
  | nil => rfl
  | cons m calls ih =>
      have hm := hfree m List.mem_cons_self
      obtain ⟨hfirst, hrest⟩ := List.pairwise_cons.mp hapart
      have hok := (register_eq_ok_iff hb).mpr ⟨hm, rfl⟩
      simp only [registerAll, hok, List.cons.injEq, true_and]
      refine ih (hb.insert hm) ?_ hrest
      intro m' hm'
      have hfree' := hfree m' (List.mem_cons_of_mem m hm')
      refine ⟨hfree'.nonempty, hfree'.fits, hfree'.memory, ?_⟩
      intro r hr
      rcases List.mem_cons.mp ((insertRegion_perm m.region b.regions).mem_iff.mp hr) with rfl | hr
      · rw [Mapping.span_region hm.fits]
        exact (hfirst m' hm').symm
      · exact hfree'.regions r hr

/-- Two buses with the invariant and the same regions have them in the same order. -/
lemma WellMapped.regions_eq {c : Bus} (hb : b.WellMapped) (hc : c.WellMapped)
    (hperm : b.regions.Perm c.regions) : b.regions = c.regions := by
  refine List.Perm.eq_of_pairwise ?_ hb.ordered hc.ordered hperm
  intro r s hr _ hrs hsr
  have hr₀ := hb.nonempty r hr
  have hs₀ := hb.nonempty s (hperm.mem_iff.mpr (by assumption))
  omega

/-- **The order of the calls makes no difference.** -/
lemma registerAll_perm {calls calls' : List Mapping} (hb : b.WellMapped)
    (hfree : ∀ m ∈ calls, b.Free m) (hapart : calls.Pairwise fun m m' => m.span.Apart m'.span)
    (hperm : calls'.Perm calls) :
    (b.registerAll calls').2 = calls' ∧ (b.registerAll calls').1 = (b.registerAll calls).1 := by
  have hall := registerAll_all hb hfree hapart
  have hall' : (b.registerAll calls').2 = calls' := by
    refine registerAll_all hb (fun m hm => hfree m (hperm.mem_iff.mp hm)) ?_
    exact (hperm.pairwise_iff fun h => Span.Apart.symm h).mpr hapart
  refine ⟨hall', ?_⟩
  have hc := gained_registerAll hb calls
  have hc' := gained_registerAll hb calls'
  rw [hall] at hc
  rw [hall'] at hc'
  have hregions : (b.registerAll calls').1.regions = (b.registerAll calls).1.regions := by
    refine hc'.wellMapped.regions_eq hc.wellMapped (hc'.regions.trans ?_)
    exact ((hperm.map Mapping.region).append_right b.regions).trans hc.regions.symm
  have hram := hc'.ram.trans hc.ram.symm
  have hjournal := hc'.journal.trans hc.journal.symm
  cases hx : (b.registerAll calls').1
  cases hy : (b.registerAll calls).1
  rw [hx, hy] at hregions hram hjournal
  simp_all

/-! ## Routing -/

/-- What an access can go to. -/
inductive Target
  | memory
  | region (r : Region)

/-- A part of the bus covers all bytes of an access. -/
def Target.Covers (b : Bus) (address : UInt64) (len : Nat) : Target → Prop
  | .memory => ∀ k < len, b.ram.span.Covers (address.toNat + k)
  | .region r => r ∈ b.regions ∧ ∀ k < len, r.span.Covers (address.toNat + k)

/-- **Where an access goes:** to the one part that covers all of it, at the distance of the address
    from its base.  Of the regions, the others stay as they are.  If there is no such part, nothing
    happens. -/
structure Routed (b : Bus) (address : UInt64) (w : Width) : Prop where
  contains_iff : b.contains address w.bytes = true ↔ ∃! t : Target, t.Covers b address w.bytes
  read_iff : (∃ v b', Bus.read address w b = .ok v b') ↔ ∃! t : Target, t.Covers b address w.bytes
  write_iff : ∀ value,
    (∃ b', Bus.write address w value b = .ok () b') ↔ ∃! t : Target, t.Covers b address w.bytes
  memory : Target.memory.Covers b address w.bytes →
    Bus.read address w b =
      .ok (UInt64.ofNat (LittleEndian.ofBytes
        (b.ram.slice (address.toNat - b.ram.base.toNat) w.bytes))) b ∧
    ∀ value, Bus.write address w value b =
      .ok ()
        { b with
          ram := b.ram.patch (address.toNat - b.ram.base.toNat)
            (LittleEndian.toBytes w.bytes value.toNat) }
  region : ∀ r, (Target.region r).Covers b address w.bytes →
    r.base ≤ address ∧ ∃ below above, b.regions = below ++ r :: above ∧
      (∀ reply, r.device.read (address - r.base) w = reply →
        Bus.read address w b =
          .ok (reply.value &&& w.mask)
            { b with
              regions := below ++ { r with device := reply.device } :: above
              journal := reply.notice.toList ++ b.journal }) ∧
      ∀ value effect, r.device.write (address - r.base) w (value &&& w.mask) = effect →
        Bus.write address w value b =
          .ok ()
            { b with
              regions := below ++ { r with device := effect.device } :: above
              journal := effect.notice.toList ++ b.journal }
  nowhere : (¬∃! t : Target, t.Covers b address w.bytes) →
    Bus.read address w b = .error ⟨address, w.bytes⟩ b ∧
      ∀ value, Bus.write address w value b = .error ⟨address, w.bytes⟩ b

section Routing

variable {address : UInt64} {w : Width}

lemma memory_covers_iff :
    Target.memory.Covers b address w.bytes ↔ b.ram.contains address w.bytes = true := by
  rw [Target.Covers, Span.covers_all_iff w.bytes_pos, Sv39.contains_iff]
  rfl

/-- **The last region that starts at an address or below it is the one that covers the access,** if
    there is one. -/
lemma region?_eq_some_iff (hb : b.WellMapped) :
    b.region? address w.bytes = some r ↔ (Target.region r).Covers b address w.bytes := by
  rw [Target.Covers, Span.covers_all_iff w.bytes_pos, region?, Option.filter_eq_some_iff]
  have hpos := w.bytes_pos
  constructor
  · rintro ⟨hlast, hend⟩
    obtain ⟨hr, hpick, _⟩ := mem_of_getLast?_filter hb.ordered hlast
    exact ⟨hr, UInt64.le_iff_toNat_le.mp (of_decide_eq_true hpick), of_decide_eq_true hend⟩
  · rintro ⟨hr, hlow, hhigh⟩
    have hpick : decide (r.base ≤ address) = true :=
      decide_eq_true (UInt64.le_iff_toNat_le.mpr hlow)
    refine ⟨?_, decide_eq_true hhigh⟩
    cases hlast : lastUpTo? b.regions address with
    | none =>
        have hnone := not_of_getLast?_filter hlast r hr
        rw [hpick] at hnone
        cases hnone
    | some s =>
        obtain ⟨_, hs, hbelow⟩ := mem_of_getLast?_filter hb.ordered hlast
        have hstart : s.span.low ≤ address.toNat := UInt64.le_iff_toNat_le.mp (of_decide_eq_true hs)
        rcases hbelow r hr hpick with rfl | hless
        · rfl
        · omega

/-- No two parts cover one access. -/
lemma Target.Covers.unique (hb : b.WellMapped) {t t' : Target}
    (ht : t.Covers b address w.bytes) (ht' : t'.Covers b address w.bytes) : t = t' := by
  have hpos := w.bytes_pos
  have hmixed (r : Region) (hr : (Target.region r).Covers b address w.bytes)
      (hmemory : Target.memory.Covers b address w.bytes) : False := by
    have hm := hb.nonempty r hr.1
    exact (Span.apart_iff hm hb.memory).mp (hb.apart r hr.1) _ (hr.2 0 hpos) (hmemory 0 hpos)
  cases t with
  | memory =>
      cases t' with
      | memory => rfl
      | region r => exact (hmixed r ht' ht).elim
  | region r =>
      cases t' with
      | memory => exact (hmixed r ht ht').elim
      | region s =>
          rw [← region?_eq_some_iff hb] at ht ht'
          rw [ht] at ht'
          rw [Option.some.inj ht']

lemma contains_iff_covers (hb : b.WellMapped) :
    b.contains address w.bytes = true ↔ ∃! t : Target, t.Covers b address w.bytes := by
  rw [contains, Bool.or_eq_true, Option.isSome_iff_exists]
  constructor
  · rintro (hmemory | ⟨r, hr⟩)
    · have ht := memory_covers_iff.mpr hmemory
      exact ⟨.memory, ht, fun t' ht' => ht'.unique hb ht⟩
    · have ht := (region?_eq_some_iff hb).mp hr
      exact ⟨.region r, ht, fun t' ht' => ht'.unique hb ht⟩
  · rintro ⟨t, ht, _⟩
    cases t with
    | memory => exact Or.inl (memory_covers_iff.mp ht)
    | region r => exact Or.inr ⟨r, (region?_eq_some_iff hb).mpr ht⟩

/-- Replacing the device of a region leaves the other regions alone. -/
lemma setDevice_regions (hb : b.WellMapped) {below above : List Region}
    (hsplit : b.regions = below ++ r :: above) (device : Device) :
    (b.setDevice r.base device).regions = below ++ { r with device } :: above := by
  have hr : r.span.low < r.span.high := hb.nonempty r (by simp [hsplit])
  have hordered := hb.ordered
  rw [hsplit, List.pairwise_append, List.pairwise_cons] at hordered
  have hother (s : Region) (hs : s ∈ below ∨ s ∈ above) : s.base ≠ r.base := by
    intro hbase
    have hlow : s.span.low = r.span.low := by simp only [Region.span, hbase]
    have hs₀ : s.span.low < s.span.high := hb.nonempty s (by rw [hsplit]; grind)
    rcases hs with hs | hs
    · have hless := hordered.2.2 s hs r List.mem_cons_self
      omega
    · have hless := hordered.2.1.1 s hs
      omega
  have hsame (l : List Region) (hl : ∀ s ∈ l, s.base ≠ r.base) :
      l.map (fun s => if s.base = r.base then { s with device } else s) = l := by
    refine (List.map_congr_left fun s hs => ?_).trans (List.map_id l)
    rw [if_neg (hl s hs)]
    rfl
  simp only [setDevice, hsplit, List.map_append, List.map_cons, if_true]
  rw [hsame below fun s hs => hother s (Or.inl hs), hsame above fun s hs => hother s (Or.inr hs)]

lemma offset_of_covers (h : Target.memory.Covers b address w.bytes) :
    b.ram.offset address = address.toNat - b.ram.base.toNat := by
  have hlow := ((Sv39.contains_iff _ _ _).mp (memory_covers_iff.mp h)).1
  exact UInt64.toNat_sub_of_le _ _ (UInt64.le_iff_toNat_le.mpr hlow)

/-- **Every access on a well-mapped bus is routed.** -/
lemma WellMapped.routed (hb : b.WellMapped) (address : UInt64) (w : Width) :
    b.Routed address w where
  contains_iff := contains_iff_covers hb
  read_iff := exists_read_iff.trans (contains_iff_covers hb)
  write_iff value := (exists_write_iff value).trans (contains_iff_covers hb)
  memory := by
    intro hcovers
    have hc := memory_covers_iff.mp hcovers
    rw [← offset_of_covers hcovers]
    refine ⟨read_of_ram hc, fun value => ?_⟩
    simp only [write, hc, if_true]
    rfl
  region := by
    intro r hr
    have hstart : r.base ≤ address :=
      UInt64.le_iff_toNat_le.mpr ((Span.covers_all_iff w.bytes_pos).mp hr.2).1
    obtain ⟨below, above, hsplit⟩ := List.mem_iff_append.mp hr.1
    have hmemory : ¬b.ram.contains address w.bytes = true := by
      intro hc
      cases hr.unique hb (memory_covers_iff.mpr hc)
    have hroute := (region?_eq_some_iff hb).mpr hr
    refine ⟨hstart, below, above, hsplit, ?_, ?_⟩
    · rintro reply rfl
      simp only [read, if_neg hmemory, hroute, ← setDevice_regions hb hsplit]
      rfl
    · rintro value effect rfl
      simp only [write, if_neg hmemory, hroute, ← setDevice_regions hb hsplit]
      rfl
  nowhere := by
    intro hno
    rw [← contains_iff_covers hb, Bool.not_eq_true] at hno
    exact ⟨read_of_not_contains hno, write_of_not_contains hno⟩

end Routing

/-! ## Buses built by calls -/

/-- The bus that a row of calls builds, starting with memory only. -/
def built (ram : Memory) (calls : List Mapping) : Bus := ((ofMemory ram).registerAll calls).1

/-- The calls of a row that succeed. -/
def registered (ram : Memory) (calls : List Mapping) : List Mapping :=
  ((ofMemory ram).registerAll calls).2

/-- Ranges that are not empty and share no address, neither with each other nor with memory. -/
structure DisjointRanges (ram : Memory) (calls : List Mapping) : Prop where
  nonempty : ∀ m ∈ calls, m.size ≠ 0
  fits : ∀ m ∈ calls, m.base.toNat + m.size.toNat < 2 ^ 64
  memory : ∀ m ∈ calls, ∀ a, m.span.Covers a → ¬ram.span.Covers a
  pairwise : calls.Pairwise fun m m' => ∀ a, m.span.Covers a → ¬m'.span.Covers a

lemma DisjointRanges.apart {ram : Memory} {calls : List Mapping} (h : DisjointRanges ram calls) :
    calls.Pairwise fun m m' => m.span.Apart m'.span := by
  refine h.pairwise.imp_of_mem ?_
  intro m m' hm hm' hnone
  have hspan := Mapping.span_nonempty.mpr (h.nonempty m hm)
  exact (Span.apart_iff hspan (Mapping.span_nonempty.mpr (h.nonempty m' hm'))).mpr hnone

lemma DisjointRanges.free {ram : Memory} {calls : List Mapping} (h : DisjointRanges ram calls)
    (hb : (ofMemory ram).WellMapped) : ∀ m ∈ calls, (ofMemory ram).Free m := by
  intro m hm
  refine (free_iff hb (h.nonempty m hm) (h.fits m hm)).mpr ?_
  intro a ha
  exact ⟨h.memory m hm a ha, by simp [ofMemory]⟩

/-- The regions of a bus cover what the calls that succeeded asked for. -/
lemma Gained.covers_iff {c : Bus} {ram : Memory} {done : List Mapping}
    (h : (ofMemory ram).Gained done c) (a : Nat) :
    (∀ r ∈ c.regions, ¬r.span.Covers a) ↔ ∀ m ∈ done, ¬m.span.Covers a := by
  have hmem (r : Region) : r ∈ c.regions ↔ ∃ m ∈ done, m.region = r := by
    rw [h.regions.mem_iff]
    simp [ofMemory]
  constructor
  · intro hnone m hm
    rw [← h.spans m hm]
    exact hnone _ ((hmem _).mpr ⟨m, hm, rfl⟩)
  · intro hnone r hr
    obtain ⟨m, hm, rfl⟩ := (hmem r).mp hr
    rw [h.spans m hm]
    exact hnone m hm

/-- **The map of addresses is sound,** whatever has been mapped and whatever has been refused
    before.

    A device is mapped exactly if its range shares no address with memory or with a range mapped so
    far, and a refused call changes nothing.  So disjoint ranges can be mapped in any order, and the
    bus is always the same.  Each access goes to the one part of the bus that covers all of it. -/
theorem map_sound (ram : Memory) (hsize : ram.size ≠ 0)
    (hend : ram.base.toNat + ram.size.toNat < 2 ^ 64) (calls : List Mapping) :
    (∀ m : Mapping, m.base.toNat + m.size.toNat < 2 ^ 64 → m.size ≠ 0 →
      ((∃ b', (built ram calls).register m.name m.base m.size m.device = .ok b') ↔
        ∀ a, m.span.Covers a →
          ¬ram.span.Covers a ∧ ∀ m' ∈ registered ram calls, ¬m'.span.Covers a)) ∧
    (∀ m : Mapping,
      (∀ b', (built ram calls).register m.name m.base m.size m.device = .ok b' →
        built ram (calls ++ [m]) = b' ∧
          registered ram (calls ++ [m]) = registered ram calls ++ [m]) ∧
      ∀ e, (built ram calls).register m.name m.base m.size m.device = .error e →
        built ram (calls ++ [m]) = built ram calls ∧
          registered ram (calls ++ [m]) = registered ram calls) ∧
    (DisjointRanges ram calls → ∀ calls', calls'.Perm calls →
      registered ram calls' = calls' ∧ built ram calls' = built ram calls) ∧
    ∀ address w, (built ram calls).Routed address w := by
  have hb := wellMapped_ofMemory hsize hend
  have hgained : (ofMemory ram).Gained (registered ram calls) (built ram calls) :=
    gained_registerAll hb calls
  refine ⟨?_, ?_, ?_, hgained.wellMapped.routed⟩
  · intro m hfits hnonempty
    have hfree := free_iff hgained.wellMapped hnonempty hfits
    simp only [hgained.ram, hgained.covers_iff] at hfree
    refine Iff.trans ?_ hfree
    constructor
    · rintro ⟨b', hok⟩
      exact ((register_eq_ok_iff hgained.wellMapped).mp hok).1
    · intro hm
      exact ⟨_, (register_eq_ok_iff hgained.wellMapped).mpr ⟨hm, rfl⟩⟩
  · intro m
    simp only [built, registered, registerAll_append, registerAll]
    constructor
    · intro b' hok
      rw [hok]
      exact ⟨rfl, rfl⟩
    · intro e herror
      rw [herror]
      exact ⟨rfl, List.append_nil _⟩
  · intro hdisjoint calls' hperm
    exact registerAll_perm hb (hdisjoint.free hb) hdisjoint.apart hperm

/-- Two ranges side by side. -/
def neighbours : List Mapping :=
  [⟨"plic", 0x2000, 0x1000, .plic Plic.new⟩, ⟨"finisher", 0x1000, 0x1000, .finisher Finisher.new⟩]

lemma disjointRanges_neighbours : DisjointRanges (Memory.zeroed 0x80000000 0x1000) neighbours where
  nonempty := by decide
  fits := by decide
  memory := by
    simp only [neighbours, List.forall_mem_cons, Mapping.span, Memory.span, Memory.zeroed,
      Span.Covers, UInt64.reduceToNat]
    refine ⟨by omega, by omega, by simp⟩
  pairwise := by
    simp only [neighbours, List.pairwise_cons, List.mem_singleton, forall_eq, Mapping.span,
      Span.Covers, UInt64.reduceToNat]
    refine ⟨by omega, by simp, List.Pairwise.nil⟩

/-- They can be mapped either way round, a range that takes one address of each is refused, and an
    access that takes bytes of both goes nowhere. -/
theorem neighbours_map_sound :
    DisjointRanges (Memory.zeroed 0x80000000 0x1000) neighbours ∧
    built (Memory.zeroed 0x80000000 0x1000) neighbours.reverse =
      built (Memory.zeroed 0x80000000 0x1000) neighbours ∧
    (¬∃ b', (built (Memory.zeroed 0x80000000 0x1000) neighbours).register "clint" 0x1FFF 2
      (.clint (Clint.new 1)) = .ok b') ∧
    Bus.read 0x1FFC .double (built (Memory.zeroed 0x80000000 0x1000) neighbours) =
      .error ⟨0x1FFC, 8⟩ (built (Memory.zeroed 0x80000000 0x1000) neighbours) := by
  obtain ⟨haccepted, _, horder, hrouted⟩ :=
    map_sound (Memory.zeroed 0x80000000 0x1000) (by decide) (by decide) neighbours
  have hperm := horder disjointRanges_neighbours
  refine ⟨disjointRanges_neighbours, (hperm _ (List.reverse_perm _)).2, ?_, ?_⟩
  · intro hok
    have hnone := (haccepted ⟨"clint", 0x1FFF, 2, .clint (Clint.new 1)⟩ (by decide)
      (by decide)).mp hok
      0x2000 ⟨by decide, by decide⟩
    rw [(hperm _ (List.Perm.refl _)).1] at hnone
    exact hnone.2 _ List.mem_cons_self ⟨by decide, by decide⟩
  · have hroute := hrouted 0x1FFC .double
    refine (hroute.nowhere ?_).1
    rw [← hroute.contains_iff]
    decide +kernel

end Bus

end Rv64Board
