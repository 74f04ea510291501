import Hermes.L2Mem.VmFileSys

/-!
# What a fork shares

`clone_locked` gives the copy the frames of the source, and in a private area takes the right to write from both, so
that the next write on either side faults and breaks the sharing: `fork_shares`.
-/
namespace Hermes.L2.Vm

open Hermes.Intervals Function

variable {env : Env} {shared : Bool} {va : Nat} {vas : List Nat} {rest : List VmArea} {c c' : Cloning}

/-- The entry of a page in the source and in the copy. -/
def Cloning.at (c : Cloning) (n : Nat) : Pte × Pte := (c.src.vm.pageMap n, c.dst.pageMap n)

/-- Both entries after `clone_locked`. -/
def forked (shared : Bool) (x : Pte × Pte) : Pte × Pte :=
  if x.1.frame = 0 then x
  else
    let p := if shared = false ∧ x.1.cow = false then { x.1 with writable := false, cow := true } else x.1
    (p, p)

lemma forked_forked (x : Pte × Pte) : forked shared (forked shared x) = forked shared x := by
  unfold forked
  split
  · simp [*]
  split <;> simp [*]

/-- What becomes of an entry that the copy does not have yet. -/
lemma forked_zero (shared : Bool) {p : Pte} (h : PteOk p) : ∃ q, forked shared (p, Pte.zero) = (q, q) ∧
    q.frame = p.frame ∧ if shared then q = p else q.writable = false ∧ (p.frame ≠ 0 → q.cow = true) := by
  unfold forked
  have hw := mt h.cow
  split <;> rename_i hz
  · obtain rfl := h.zero hz
    exact ⟨Pte.zero, rfl, rfl, by cases shared <;> decide⟩
  split <;> exact ⟨_, rfl, rfl, by cases shared <;> simp_all⟩

lemma clonePage_at (h : clonePage env shared va c = (true, c')) (n : Nat) :
    c'.at n = if n = va / 4096 then forked shared (c.at n) else c.at n := by
  unfold clonePage at h
  dsimp only at h
  by_cases hz : (c.src.pte va).frame = 0
  · rw [if_pos hz] at h
    cases h
    by_cases hn : n = va / 4096 <;> simp_all [forked, Cloning.at, St.pte]
  rw [if_neg hz] at h
  unfold Cloning.at forked
  by_cases hs : shared = false ∧ (c.src.pte va).cow = false <;> [rw [if_pos hs] at h; rw [if_neg hs] at h]
  all_goals
    unfold St.pte at hz hs
    split at h <;> cases h
    by_cases hn : n = va / 4096 <;> simp [St.pte, St.setPte, St.invalidate, St.act, hn, hz, hs]

lemma clonePages_at (h : clonePages env shared vas c = (true, c')) (n : Nat) :
    c'.at n = if n ∈ vas.map (· / 4096) then forked shared (c.at n) else c.at n := by
  induction vas generalizing c with
  | nil =>
    cases h
    rfl
  | cons va vas ih =>
    unfold clonePages at h
    rcases hp : clonePage env shared va c with ⟨_ | _, d⟩ <;> rw [hp] at h
    · cases h
    rw [ih h, clonePage_at hp]
    -- the page may be this one, and also come again
    by_cases h1 : n = va / 4096 <;> by_cases h2 : n ∈ vas.map (· / 4096) <;> simp [h1, h2, forked_forked]

/-- The pages of the areas are shared, and no other. -/
lemma cloneAreas_at (hok : AreasOk rest) (h : cloneAreas env rest c = (true, c')) (n : Nat) :
    c'.at n = (entryAt rest (n * 4096)).elim (c.at n) fun e => forked e.flags.shared (c.at n) := by
  induction rest generalizing c with
  | nil =>
    cases h
    rfl
  | cons a rest ih =>
    obtain ⟨haok, -, hafter, hrest⟩ := areasOk_cons.1 hok
    unfold cloneAreas areaNew Mach.malloc at h
    cases hm : env.malloc c.src.mc.tick with rw [hm] at h
    | false => cases h
    | true =>
      dsimp only [areaSetFile] at h
      generalize hc0 : (⟨_, _⟩ : Cloning) = c0 at h
      have hat : c0.at n = c.at n := hc0 ▸ rfl
      rcases hp : clonePages env a.flags.shared (pages a.start a.stop) c0 with ⟨_ | _, d⟩ <;> rw [hp] at h
      · cases h
      have hd := hat ▸ clonePages_at hp n
      rw [ih hrest h, entryAt_cons]
      split <;> rename_i hin
      · have hnone : entryAt rest (n * 4096) = none := by
          refine entryAt_eq_none.2 fun b hb hlo => ?_
          have := hafter b hb
          omega
        rw [hnone]
        exact hd.trans (if_pos ((mem_pages_vpn haok.start).2 hin))
      · rw [hd, if_neg (mt (mem_pages_vpn haok.start).1 hin)]

/-- In every run without a wrapping gap search, and whichever allocations fail: a fork that succeeds has the areas of the
source, and each page has one frame on both sides, that of the source before. Both may write a page of a shared area
as the source could; a page of a private area neither may write, and if it has a frame it is copy-on-write on both
sides. -/
theorem fork_shares {w : World} (h : (system.restrict NoWrap).Reachable w) {i : Nat} {vm child : VmSpace} {src : St}
    (hi : w.spaces i = some vm) (hc : cloneLocked env ⟨vm, w.mc⟩ = (some child, src)) :
    child.areas = vm.areas ∧ src.vm.areas = vm.areas ∧ ∀ n, child.pageMap n = src.vm.pageMap n ∧
      (child.pageMap n).frame = (vm.pageMap n).frame ∧ ∀ e, entryAt vm.areas (n * 4096) = some e →
        if e.flags.shared then child.pageMap n = vm.pageMap n
        else (child.pageMap n).writable = false ∧ ((vm.pageMap n).frame ≠ 0 → (child.pageMap n).cow = true) := by
  have hok := reachable_ok h i vm hi
  unfold cloneLocked at hc
  rcases hv : vmCreate env w.mc with ⟨_ | v, mc⟩ <;> rw [hv] at hc
  · cases hc
  obtain rfl := vmCreate_ok env w.mc (congrArg Prod.fst hv)
  dsimp only at hc
  have hside := cloneAreas_side env vm.areas hok.areas.tiled ⟨⟨vm, mc⟩, ⟨[], fun _ => Pte.zero, 1, vm.brkStart, vm.brk,
    vm.mmapBase, []⟩⟩ fun d hd => absurd hd (by simp)
  rcases ha : cloneAreas env vm.areas _ with ⟨_ | _, c⟩ <;> rw [ha] at hc hside
  · cases hc
  obtain ⟨taken, ht, h1, -, h2, -⟩ := hside
  cases hc
  rw [flushOthers_vm]
  rw [ht rfl] at h2
  refine ⟨(areas_of_layout h2 :), areas_of_layout h1, fun n => ?_⟩
  obtain ⟨hs, hd⟩ := Prod.ext_iff.1 (cloneAreas_at hok.areas ha n)
  dsimp only [Cloning.at] at hs hd
  rw [hs, hd]
  cases he : entryAt vm.areas (n * 4096) with
  | none => simp [hok.empty he]
  | some e =>
    obtain ⟨q, hq, hrest⟩ := forked_zero e.flags.shared (hok.pte n)
    simp only [Option.elim_some, hq, Option.some.injEq, forall_eq']
    exact ⟨trivial, hrest⟩

theorem fork_shares_onePage : ∃ vm child, (onePage.foldl World.step bootWorld).spaces 0 = some vm ∧
    (cloneLocked plenty ⟨vm, (onePage.foldl World.step bootWorld).mc⟩).1 = some child ∧
    ∀ n, (child.pageMap n).frame = (vm.pageMap n).frame :=
  ⟨_, _, rfl, rfl, fun n => ((fork_shares onePage_reachable (i := 0) rfl
    (Prod.ext rfl rfl : cloneLocked plenty _ = (some _, _))).2.2 n).2.1⟩

end Hermes.L2.Vm
