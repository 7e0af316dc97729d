import Rv64Board.Proofs.StandardBoard

/-!
# Histories

What a history without a debugger leads to, and what every such history leaves alone.

* `Bus.sameMap_tick` — a step of the devices leaves the map of addresses alone, so memory stays
  where it is (`Bus.Kept.of_sameMap`), also after any history (`Machine.sameMap_after`).
* `Machine.Reachable.aligned_base` — memory starts at a page, and so does every program.
* `Machine.Reachable.after` — a history without a debugger leads to a reachable machine.
-/

namespace Rv64Board

/-! ## Where memory is -/

namespace Bus

lemma tickRegions_extents (regions : List Region) (ram : Memory) (lines : Lines) :
    (tickRegions regions ram lines).1.map extent = regions.map extent ∧
      (tickRegions regions ram lines).2.1.base = ram.base ∧
      (tickRegions regions ram lines).2.1.size = ram.size := by
  induction regions generalizing ram lines with
  | nil => simp [tickRegions]
  | cons r regions ih =>
      have hram : (r.device.tick ram lines).ram.base = ram.base ∧
          (r.device.tick ram lines).ram.size = ram.size := by
        cases r.device with
        | virtio v =>
            have hkept := VirtioBlock.kept_answer v ram
            exact ⟨hkept.1, hkept.2.1⟩
        | _ => exact ⟨rfl, rfl⟩
      obtain ⟨hextents, hbase, hsize⟩ :=
        ih (r.device.tick ram lines).ram (r.device.tick ram lines).lines
      simp only [tickRegions, List.map_cons, hextents, hbase, hsize, hram]
      exact ⟨rfl, trivial, trivial⟩

lemma routeRegions_extents (regions : List Region) (lines : Lines) :
    (routeRegions regions lines).1.map extent = regions.map extent := by
  induction regions generalizing lines with
  | nil => simp [routeRegions]
  | cons r regions ih =>
      simp only [routeRegions, List.map_cons, ih]
      rfl

lemma sameMap_tick (b : Bus) (lines : Lines) : SameMap b (b.tick lines).1 := by
  obtain ⟨hextents, hbase, hsize⟩ :=
    tickRegions_extents b.regions b.ram { lines with sources := 0, mip := 0 }
  refine ⟨hbase, hsize, ?_⟩
  rw [← hextents]
  exact routeRegions_extents _ _

/-- What depends on the map of addresses alone is never lost. -/
lemma Kept.of_sameMap {P : Bus → Prop} (hP : ∀ b b', SameMap b b' → P b → P b') : Kept P where
  read a w b hb := hP _ _ (leaves_sameMap_read a w b) hb
  write a w v b hb := hP _ _ (leaves_sameMap_write a w v b) hb
  tick lines b hb := hP _ _ (sameMap_tick b lines) hb
  note notices b hb := hP _ _ (sameMap_note b notices) hb

end Bus

namespace Machine

/-- Nothing that the host does moves memory or a device. -/
lemma sameMap_apply (m : Machine) (op : HostOp) :
    Bus.SameMap m.board.bus (op.apply m).board.bus := by
  have hkept : Bus.Kept (Bus.SameMap m.board.bus) :=
    Bus.Kept.of_sameMap fun _ _ hsame hb => hb.trans hsame
  have hrefl := Bus.SameMap.refl m.board.bus
  cases op with
  | load image =>
      simp only [HostOp.apply]
      split
      · next hload =>
        obtain ⟨_, rfl⟩ := load_eq_ok hload
        refine ⟨Memory.base_patch _ _ _, Memory.size_patch _ _ _, ?_⟩
        simp only [Bus.reset, List.map_map]
        rfl
      · exact hrefl
  | step => exact kept_step hkept hrefl
  | runFor n => exact kept_runFrom hkept 0 n hrefl
  | runWithin fuel =>
      simp only [HostOp.apply]
      split
      · next hrun => exact kept_runWithin hkept 0 fuel hrefl hrun
      · exact hrefl
  | cancel | setHart => exact hrefl
  | feed | pop | drain => exact Bus.sameMap_setDevice _ _ _
  | read address w => exact hkept.read address w _ hrefl
  | write address w value => exact hkept.write address w value _ hrefl

/-- **After any history, everything still has its addresses.** -/
lemma sameMap_after (m : Machine) (history : List HostOp) :
    Bus.SameMap m.board.bus (m.after history).board.bus := by
  induction history generalizing m with
  | nil => exact Bus.SameMap.refl _
  | cons op history ih => exact (sameMap_apply m op).trans (ih (op.apply m))

lemma aligned_of_new {c : MachineConfig} {m : Machine} (h : Machine.new c = .ok m) :
    c.ramBase.toNat % pageSize = 0 := by
  have hproblem := (new_eq_ok h).1
  by_contra hoff
  simp only [MachineConfig.problem?, hoff, ne_eq, not_false_eq_true, true_or, if_true] at hproblem
  grind

/-- **Memory starts at a page** in every reachable machine. -/
lemma Reachable.aligned_base {m : Machine} (hm : m.Reachable) :
    m.board.bus.ram.base.toNat % pageSize = 0 := by
  have hkept : Bus.Kept fun b => b.ram.base.toNat % pageSize = 0 :=
    Bus.Kept.of_sameMap fun _ _ hsame hb => by rwa [hsame.base]
  induction hm with
  | @new c m hnew =>
      obtain ⟨hbus, _⟩ := MachineConfig.bus_eq_ok (new_eq_ok hnew).2
      rw [hbus]
      exact aligned_of_new hnew
  | load _ hload ih =>
      obtain ⟨_, rfl⟩ := load_eq_ok hload
      simpa [Memory.clear, Memory.zeroed] using ih
  | step _ ih => exact kept_step hkept ih
  | runFor n _ ih => exact kept_runFrom hkept 0 n ih
  | runWithin fuel _ hrun ih => exact kept_runWithin hkept 0 fuel ih hrun
  | cancel _ _ ih | feed _ _ ih | pop _ ih | drain _ ih => exact ih

end Machine

/-! ## Histories without a debugger -/

/-- What the host can do without a debugger. -/
def HostOp.ordinary : HostOp → Bool
  | .setHart _ | .read .. | .write .. => false
  | _ => true

namespace Machine

lemma reachable_ofConfig {c : MachineConfig} (h : (Machine.new c).isOk = true) :
    (ofConfig c).Reachable :=
  Reachable.new (new_eq_ofConfig h)

lemma Reachable.apply {m : Machine} (hm : m.Reachable) {op : HostOp} (hop : op.ordinary = true) :
    (op.apply m).Reachable := by
  cases op with
  | load image =>
      simp only [HostOp.apply]
      split
      · next hload => exact hm.load hload
      · exact hm
  | step => exact hm.step
  | runFor n => exact hm.runFor n
  | runWithin fuel =>
      simp only [HostOp.apply]
      split
      · next hrun => exact hm.runWithin fuel hrun
      · exact hm
  | cancel cancelled => exact hm.cancel cancelled
  | feed bytes => exact hm.feed bytes
  | pop => exact hm.pop
  | drain => exact hm.drain
  | setHart | read | write => cases hop

lemma Reachable.after {m : Machine} (hm : m.Reachable) {history : List HostOp}
    (hordinary : history.all HostOp.ordinary = true) : (m.after history).Reachable := by
  induction history generalizing m with
  | nil => exact hm
  | cons op history ih =>
      rw [List.all_cons, Bool.and_eq_true] at hordinary
      exact ih (hm.apply hordinary.1) hordinary.2

end Machine

end Rv64Board
