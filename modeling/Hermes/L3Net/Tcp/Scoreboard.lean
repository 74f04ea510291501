import Hermes.L3Net.Tcp.Sack

/-!
# The SACK scoreboard stays sorted inside the flight

`Scoreboard u m bs`: the blocks of `bs` are non-empty, lie between `u`
(`snd_una`) and `m` (`snd_max`), and are in order with a gap between any two.
It is kept by merging an arbitrary received block
(`Scoreboard.updateOne`), by the trim at a new acknowledgement
(`Scoreboard.trim`) and by a growing `snd_max`; a hole found by
`tcpSackNextHole` then ends where a block starts (`Scoreboard.nextHole`).
Every fact is about distances from `u`, which the caller keeps below `2^31`.
-/
namespace Hermes.L3.Tcp

open Hermes.Seq32 List

/-- A non-empty block between `u` and `m`. -/
def BlockOk (u m : UInt32) (b : SackBlock) : Prop := dist u b.start < dist u b.stop ∧ dist u b.stop ≤ dist u m

/-- `x` ends before `y` starts, and they do not touch. -/
def Before (u : UInt32) (x y : SackBlock) : Prop := dist u x.stop < dist u y.start

structure Scoreboard (u m : UInt32) (bs : List SackBlock) : Prop where
  ok : ∀ b ∈ bs, BlockOk u m b
  sorted : bs.Pairwise (Before u)

lemma Scoreboard.nil (u m : UInt32) : Scoreboard u m [] := ⟨by simp, .nil⟩

variable {u m : UInt32} {bs : List SackBlock}

lemma Scoreboard.mono {m' : UInt32} (h : Scoreboard u m bs) (hm : dist u m ≤ dist u m') : Scoreboard u m' bs :=
  ⟨fun b hb => ⟨(h.ok b hb).1, le_trans (h.ok b hb).2 hm⟩, h.sorted⟩

lemma Scoreboard.sublist {bs' : List SackBlock} (h : Scoreboard u m bs) (hs : bs'.Sublist bs) : Scoreboard u m bs' :=
  ⟨fun b hb => h.ok b (hs.subset hb), h.sorted.sublist hs⟩

/-! ## Merging a block -/

lemma insertIdx_length_append (pre rest : List SackBlock) (b : SackBlock) :
    (pre ++ rest).insertIdx pre.length b = pre ++ b :: rest := by
  induction pre with
  | nil => rfl
  | cons x pre ih => simp [ih]

/-- A full scoreboard forgets its last block, or the new one. -/
lemma tcpSackInsertAt_sublist (pre rest : List SackBlock) (b : SackBlock) :
    (tcpSackInsertAt (pre ++ rest) pre.length b).Sublist (pre ++ b :: rest) := by
  unfold tcpSackInsertAt
  split
  · rename_i hfull
    split
    · exact (sublist_cons_self b rest).append_left pre
    rename_i hi
    have hne : rest ≠ [] := by
      rintro rfl
      simp at hfull
      exact hi hfull
    rw [dropLast_append_of_ne_nil hne, insertIdx_length_append]
    exact ((dropLast_sublist rest).cons_cons b).append_left pre
  · rw [insertIdx_length_append]

/-- Both blocks are covered by the result of `absorb`, which is their hull. -/
lemma absorb_dist {b cur : SackBlock} (hm : dist u m < 2 ^ 31) (hb : BlockOk u m b) (hc : BlockOk u m cur) :
    dist u (b.absorb cur).start = min (dist u cur.start) (dist u b.start) ∧
    dist u (b.absorb cur).stop = max (dist u cur.stop) (dist u b.stop) := by
  obtain ⟨hb1, hb2⟩ := hb
  obtain ⟨hc1, hc2⟩ := hc
  have h1 := lt_iff (u := u) (a := cur.start) (b := b.start) (by omega) (by omega)
  have h2 := gt_iff (u := u) (a := cur.stop) (b := b.stop) (by omega) (by omega)
  unfold SackBlock.absorb
  constructor
  · by_cases h : lt cur.start b.start = true
    · rw [if_pos h]; have := h1.1 h; dsimp only; omega
    · rw [if_neg h]; rw [h1] at h; dsimp only; omega
  by_cases h : gt cur.stop b.stop = true
  · rw [if_pos h]; have := h2.1 h; dsimp only; omega
  · rw [if_neg h]; rw [h2] at h; dsimp only; omega

/-- The merge loop leaves a scoreboard with the grown block in its place.
Induction on the blocks not reached; `pre` stays wholly before `b`. -/
lemma mergeLoop_scoreboard (hm : dist u m < 2 ^ 31) :
    ∀ (rest pre : List SackBlock) (b : SackBlock), Scoreboard u m (pre ++ rest) →
      BlockOk u m b → (∀ x ∈ pre, Before u x b) →
      Scoreboard u m ((tcpSackMergeLoop pre rest b).1 ++
        (tcpSackMergeLoop pre rest b).2.2 :: (tcpSackMergeLoop pre rest b).2.1)
  | [], pre, b, h, hb, hpre => by
    simp only [append_nil] at h
    refine ⟨?_, pairwise_append.2 ⟨h.sorted, by simp [tcpSackMergeLoop], ?_⟩⟩
    · intro x hx
      simp only [tcpSackMergeLoop, mem_append, mem_singleton] at hx
      rcases hx with hx | rfl
      · exact h.ok x hx
      · exact hb
    · simpa [tcpSackMergeLoop] using hpre
  | cur :: rest, pre, b, h, hb, hpre => by
    have hcur : BlockOk u m cur := h.ok cur (by simp)
    obtain ⟨hb1, hb2⟩ := hb
    obtain ⟨hc1, hc2⟩ := hcur
    have hlt := lt_iff (u := u) (a := cur.stop) (b := b.start) (by omega) (by omega)
    have hgt := gt_iff (u := u) (a := cur.start) (b := b.stop) (by omega) (by omega)
    unfold tcpSackMergeLoop
    split
    · rename_i h1
      refine mergeLoop_scoreboard hm rest (pre ++ [cur]) b (by simpa using h) ⟨hb1, hb2⟩ ?_
      intro x hx
      simp only [mem_append, mem_singleton] at hx
      rcases hx with hx | rfl
      · exact hpre x hx
      · exact hlt.1 h1
    split
    · rename_i h2
      obtain ⟨hp, hr, hpr⟩ := pairwise_append.1 h.sorted
      have hbc : dist u b.stop < dist u cur.start := hgt.1 h2
      -- the blocks after `cur` start even later
      have hrest : ∀ y ∈ cur :: rest, Before u b y := by
        intro y hy
        rcases mem_cons.1 hy with rfl | hy
        · exact hbc
        have : dist u cur.stop < dist u y.start := (pairwise_cons.1 hr).1 y hy
        unfold Before; omega
      refine ⟨?_, pairwise_append.2 ⟨hp, pairwise_cons.2 ⟨hrest, hr⟩, ?_⟩⟩
      · intro x hx
        simp only [mem_append, mem_cons] at hx
        rcases hx with hx | rfl | hx
        · exact h.ok x (mem_append_left _ hx)
        · exact ⟨hb1, hb2⟩
        · exact h.ok x (by simp only [mem_append, mem_cons]; exact .inr hx)
      · intro x hx y hy
        rcases mem_cons.1 hy with rfl | hy
        · exact hpre x hx
        · exact hpr x hx y hy
    · obtain ⟨ha1, ha2⟩ := absorb_dist hm ⟨hb1, hb2⟩ ⟨hc1, hc2⟩
      refine mergeLoop_scoreboard hm rest pre (b.absorb cur) ?_ ?_ ?_
      · exact h.sublist ((sublist_cons_self cur rest).append_left pre)
      · unfold BlockOk; omega
      intro x hx
      have hxb : dist u x.stop < dist u b.start := hpre x hx
      have hxc : dist u x.stop < dist u cur.start := (pairwise_append.1 h.sorted).2.2 x hx cur (by simp)
      unfold Before; omega

lemma Scoreboard.merge {b : SackBlock} (h : Scoreboard u m bs) (hm : dist u m < 2 ^ 31)
    (hb : BlockOk u m b) : Scoreboard u m (tcpSackMerge bs b) :=
  (mergeLoop_scoreboard hm bs [] b h hb (by simp)).sublist (tcpSackInsertAt_sublist _ _ _)

/-- Whatever block the peer reports, the scoreboard stays well formed. -/
lemma Scoreboard.updateOne (b : SackBlock) (h : Scoreboard u m bs) (hm : dist u m < 2 ^ 31) :
    Scoreboard u m (tcpSackUpdateOne u m bs b) := by
  unfold tcpSackUpdateOne
  split
  · exact h
  rename_i hb
  simp only [Bool.or_eq_true, not_or, Bool.not_eq_true] at hb
  obtain ⟨⟨h1, h2⟩, h3⟩ := hb
  have hgt : gt b.stop u = true := by simp only [gt, leq, decide_eq_false_iff_not, decide_eq_true_eq] at h2 ⊢; omega
  obtain ⟨hs0, hs1⟩ := dist_of_gt_leq hm hgt h3
  refine h.merge hm ⟨?_, hs1⟩
  by_cases hst : lt b.start u = true
  · simpa only [hst, if_true, Seq32.dist_self] using hs0
  -- `b.start` is at or after `u`, and `b.stop` after `b.start`
  have hd : dist u b.start < 2 ^ 31 := dist_lt_of_not_lt (by simpa using hst)
  have hle := leq_iff (a := b.stop) (by omega) hd
  rw [if_neg hst]
  dsimp only
  by_contra hc
  rw [hle.2 (by omega)] at h1
  exact absurd h1 (by simp)

lemma Scoreboard.update (blocks : List SackBlock) (h : Scoreboard u m bs) (hm : dist u m < 2 ^ 31) :
    Scoreboard u m (blocks.foldl (tcpSackUpdateOne u m) bs) := by
  induction blocks generalizing bs with
  | nil => exact h
  | cons b blocks ih => exact ih (h.updateOne b hm)

/-! ## A new acknowledgement -/

/-- Trimmed at `ack`, the scoreboard is one from `ack` on. -/
lemma Scoreboard.trim {ack : UInt32} (h : Scoreboard u m bs) (hm : dist u m < 2 ^ 31)
    (ha : dist u ack ≤ dist u m) : Scoreboard ack m (tcpSackTrim ack bs) := by
  induction bs with
  | nil => exact .nil ack m
  | cons b rest ih =>
    have hrest : Scoreboard u m rest := h.sublist (sublist_cons_self b rest)
    obtain ⟨hb1, hb2⟩ := h.ok b mem_cons_self
    have hle := leq_iff (u := u) (a := b.stop) (b := ack) (by omega) (by omega)
    have hlt := lt_iff (u := u) (a := b.start) (b := ack) (by omega) (by omega)
    have hmd : dist ack m = dist u m - dist u ack := dist_rebase ha
    unfold tcpSackTrim
    split
    · exact ih hrest
    rename_i h1
    rw [hle] at h1
    have hbs : dist ack b.stop = dist u b.stop - dist u ack := dist_rebase (by omega)
    -- the blocks after `b` lie beyond `b.stop`, hence beyond `ack`
    have hafter : ∀ y ∈ rest, dist u b.stop < dist u y.start := (pairwise_cons.1 h.sorted).1
    have hreb : ∀ y ∈ rest, dist ack y.start = dist u y.start - dist u ack ∧
        dist ack y.stop = dist u y.stop - dist u ack := by
      intro y hy
      have := hafter y hy
      have := (hrest.ok y hy).1
      exact ⟨dist_rebase (by omega), dist_rebase (by omega)⟩
    have hhead : dist ack (if lt b.start ack then { b with start := ack } else b).start <
        dist ack b.stop ∧ (if lt b.start ack then { b with start := ack } else b).stop = b.stop := by
      by_cases hs : lt b.start ack = true
      · rw [if_pos hs]; exact ⟨by rw [Seq32.dist_self]; omega, rfl⟩
      rw [if_neg hs]
      rw [hlt] at hs
      have : dist ack b.start = dist u b.start - dist u ack := dist_rebase (by omega)
      exact ⟨by omega, rfl⟩
    refine ⟨?_, pairwise_cons.2 ⟨?_, ?_⟩⟩
    · intro y hy
      rcases mem_cons.1 hy with rfl | hy
      · unfold BlockOk; rw [hhead.2]; exact ⟨hhead.1, by omega⟩
      have := hreb y hy; have := hrest.ok y hy; have := hafter y hy
      unfold BlockOk at *; omega
    · intro y hy
      have := hreb y hy; have := hafter y hy
      unfold Before; rw [hhead.2]; omega
    refine hrest.sorted.imp_of_mem ?_
    intro x y hx hy hxy
    have := hreb x hx; have := hreb y hy; have := hafter x hx
    have := (hrest.ok x hx).1
    unfold Before at *; omega

/-! ## The next hole -/

lemma holeFrom_spec (hm : dist u m < 2 ^ 31) :
    ∀ (bs : List SackBlock) (start seq len : UInt32), Scoreboard u m bs → dist u start ≤ dist u m →
      tcpSackHoleFrom start bs = some (seq, len) →
      dist u start ≤ dist u seq ∧ 0 < len.toNat ∧ ∃ b ∈ bs, dist u seq + len.toNat = dist u b.start
  | [], _, _, _, _, _, he => by simp [tcpSackHoleFrom] at he
  | b :: rest, start, seq, len, h, hs, he => by
    obtain ⟨hb1, hb2⟩ := h.ok b mem_cons_self
    have hlt := lt_iff (u := u) (a := start) (b := b.start) (by omega) (by omega)
    have hlt2 := lt_iff (u := u) (a := start) (b := b.stop) (by omega) (by omega)
    unfold tcpSackHoleFrom at he
    split at he
    · rename_i h1
      rw [hlt] at h1
      obtain ⟨rfl, rfl⟩ := he
      have := toNat_sub (u := u) (a := start) (b := b.start) (by omega)
      exact ⟨le_rfl, by omega, b, mem_cons_self, by omega⟩
    have hrest : Scoreboard u m rest := h.sublist (sublist_cons_self b rest)
    by_cases h2 : lt start b.stop = true
    · rw [if_pos h2] at he
      obtain ⟨r1, r2, b', hb', r3⟩ := holeFrom_spec hm rest b.stop seq len hrest hb2 he
      rw [hlt2] at h2
      exact ⟨by omega, r2, b', mem_cons_of_mem _ hb', r3⟩
    · rw [if_neg h2] at he
      obtain ⟨r1, r2, b', hb', r3⟩ := holeFrom_spec hm rest start seq len hrest hs he
      exact ⟨r1, r2, b', mem_cons_of_mem _ hb', r3⟩

/-- A hole starts at or after `sack_rxmit` and ends where a block starts. -/
lemma Scoreboard.nextHole {tp : Tcpcb} {seq len : UInt32} (h : Scoreboard tp.sndUna tp.sndMax tp.sackBlocks)
    (hm : dist tp.sndUna tp.sndMax < 2 ^ 31) (hr : dist tp.sndUna tp.sackRxmit ≤ dist tp.sndUna tp.sndMax)
    (he : tcpSackNextHole tp = some (seq, len)) : dist tp.sndUna tp.sackRxmit ≤ dist tp.sndUna seq ∧ 0 < len.toNat ∧
    ∃ b ∈ tp.sackBlocks, dist tp.sndUna seq + len.toNat = dist tp.sndUna b.start := by
  have hgt := gt_iff (u := tp.sndUna) (a := tp.sackRxmit) (b := tp.sndUna) (by omega) (by simp)
  unfold tcpSackNextHole at he
  by_cases hg : gt tp.sackRxmit tp.sndUna = true
  · rw [if_pos hg] at he
    exact holeFrom_spec hm _ _ _ _ h hr he
  rw [if_neg hg] at he
  rw [hgt] at hg
  have := holeFrom_spec hm _ _ _ _ h (by simp) he
  exact ⟨by omega, this.2⟩

end Hermes.L3.Tcp
