import Hermes.L4Fs.BcacheSys

/-!
# What the buffer cache promises

`flush_durable`: after `bc_flush` the device has every byte, and the structure of the
cache is sound, in every run whose writes lie in their device. A write past the end of the
device is accepted and lost: `write_past_end_lost`. No other is: `no_update_lost`.

`read_linearizable`: a read returns for every byte a value that it had when the read
began, or was given since, in every run in which moreover no buffer is taken away from a
block under a direct read. If one is, the read returns what had been overwritten before:
`direct_read_stale`.

`raw_inside`: raw requests stay in the device, while the calls do. `direct_read` asks for what lies behind
its end: `direct_read_outside`.
-/
namespace Hermes.L4.Bcache

open Cache Store Function Option

namespace BSys

variable {s t : BSys} {p q b d k x a : Nat} {cl : Call} {l : Label}

/-- The runs whose writes lie in their device. -/
abbrev inRangeRuns : LTS BSys Label := system.restrict fun s l => s.inRange l = true

lemma reachable_inv (h : inRangeRuns.Reachable s) : Inv s := by
  refine LTS.Inductive.reachable ⟨?_, ?_⟩ h
  · rintro s ⟨len, disk, rfl⟩
    exact start_inv len disk
  intro s l t hs hstep
  exact (hs.exec hstep.1 hstep.2).1

/-- In every state of these runs: when `bc_flush` returns 0, each byte of its device has on the
device a value that is no older than the last one it was given before the call; no two buffers
are for the same block; the dirty buffers are as many as counted; and no busy buffer is in the list of
idle ones. -/
theorem flush_durable (h : inRangeRuns.Reachable s) :
    (∀ p cl, s.call p = some cl → cl.op = .flush → cl.phase = .done 0 → ∀ a, a < s.len cl.dev →
      ∃ n, cl.since a ≤ n ∧ (s.hist cl.dev a)[n]? = some (s.disk cl.dev a)) ∧
    (∀ b b' d k, s.cache.Holds b d k → s.cache.Holds b' d k → b = b') ∧
    s.cache.ndirty = ((List.range s.cache.nbufs).countP fun b => (s.cache.bufs b).dirty : Nat) ∧
    ∀ b ∈ s.cache.lru, (s.cache.bufs b).busy = false := by
  have hi := reachable_inv h
  refine ⟨fun p cl hc hop hph a ha => ?_, hi.core.wf.unique, hi.core.wf.ndirty,
    fun b hb => ((hi.core.wf.lruIff b).1 hb).2⟩
  have hok := hi.phase p cl hc
  rw [PhaseOk, hph] at hok
  exact hok.1 hop rfl a ha

/-- One byte is written and flushed. -/
def writeFlush (off : Nat) : List Label :=
  [.call 0 0 (.write off 1 fun _ => 7) false, .loop 0 false, .get 0 true true, .bread 0 fun _ => true,
    .filled 0 true, .copy 0, .loop 0 false, .ret 0,
    .call 0 0 .flush false, .scan 0 true, .wrote 0 true, .scan 0 true, .rawFlushed 0 true]

/-- The device of the examples: seven sectors of zeroes. -/
abbrev sevenSectors : BSys := start (fun _ => 3584) fun _ _ => 0

/-- What a state says about a flush by process 0 and a byte of device 0. -/
def flushed (s : BSys) (a : Nat) : Option (Bool × Nat × Nat) :=
  match s.call 0 with
  | some ⟨d, .flush, _, _, since, .done r⟩ => some (r == 0, d, since a)
  | _ => none

variable {n : Nat} {taken : Nat → Option UInt8}

lemma flushed_eq_some (h : s.flushed a = some (true, d, n)) :
    ∃ cl, s.call 0 = some cl ∧ cl.op = .flush ∧ cl.phase = .done 0 ∧ cl.dev = d ∧ cl.since a = n := by
  unfold flushed at h
  split at h
  · rename_i hc
    simp only [Option.some.injEq, Prod.mk.injEq, beq_iff_eq] at h
    obtain ⟨rfl, rfl, rfl⟩ := h
    exact ⟨_, hc, rfl, rfl, rfl, rfl⟩
  · cases h

theorem flush_durable_oneByte : ∃ s cl, inRangeRuns.Reachable s ∧ s.call 0 = some cl ∧ cl.op = .flush ∧
    cl.phase = .done 0 ∧ s.disk 0 5 = 7 := by
  have h : (((writeFlush 5).foldlM (fun (s : BSys) l => if s.inRange l then s.exec l else none) sevenSectors).map
      fun s => (s.flushed 5, s.hist 0 5, s.len 0)) = some (some (true, 0, 1), [0, 7], 3584) := by decide +kernel
  obtain ⟨s, hrun, he⟩ := map_eq_some_iff.1 h
  simp only [Prod.mk.injEq] at he
  have hr : inRangeRuns.Reachable s := ⟨_, _, ⟨_, _, rfl⟩, LTS.run_restrict_ofOption hrun⟩
  obtain ⟨cl, hc, hop, hph, hd, hs⟩ := flushed_eq_some he.1
  refine ⟨s, cl, hr, hc, hop, hph, ?_⟩
  obtain ⟨n, hn, hv⟩ := (flush_durable hr).1 0 cl hc hop hph 5 (by rw [hd, he.2.2]; decide)
  rw [hs] at hn
  rw [hd, he.2.1] at hv
  match n, hn, hv with
  | 1, _, hv => simpa using hv.symm
  | n + 2, _, hv => simp at hv

/-- The byte after the last one of the device: `bc_write` and `bc_flush` both return 0 and nothing
reaches the device. -/
theorem write_past_end_lost : ∃ s cl, system.Reachable s ∧ s.call 0 = some cl ∧ cl.op = .flush ∧
    cl.phase = .done 0 ∧ cl.dev = 0 ∧ cl.since 3584 = 1 ∧ s.hist 0 3584 = [0, 7] ∧ s.disk 0 3584 = 0 := by
  have h : (((writeFlush 3584).foldlM exec sevenSectors).map fun s =>
      (s.flushed 3584, s.hist 0 3584, s.disk 0 3584)) = some (some (true, 0, 1), [0, 7], 0) := by decide +kernel
  obtain ⟨s, hrun, he⟩ := map_eq_some_iff.1 h
  simp only [Prod.mk.injEq] at he
  obtain ⟨cl, hc, hop, hph, hd, hs⟩ := flushed_eq_some he.1
  exact ⟨s, cl, ⟨_, _, ⟨_, _, rfl⟩, LTS.run_ofOption hrun⟩, hc, hop, hph, hd, hs, he.2.1, he.2.2⟩

/-- In every state of these runs, whatever the calls are in the middle of and whichever raw writes have failed, the last
value that a byte was given is on the device or in a dirty buffer. -/
theorem no_update_lost (h : inRangeRuns.Reachable s) (ha : a < s.len d) :
    s.Current d a (s.disk d a) ∨ ∃ b, s.cache.Holds b d (a / block) ∧ (s.cache.bufs b).dirty = true ∧
      s.Current d a ((s.cache.bufs b).data (a % block)) := by
  have hi := reachable_inv h
  by_cases hd : ∃ b, s.cache.Holds b d (a / block) ∧ (s.cache.bufs b).dirty = true
  · obtain ⟨b, ⟨hb, rfl, hk⟩, hdirty⟩ := hd
    exact .inr ⟨b, ⟨hb, rfl, hk⟩, hdirty, hi.core.content b hb (hi.core.dirtyValid b hb hdirty) a hk.symm ha⟩
  · refine .inl (hi.core.disk d a ha fun b hb => ?_)
    by_contra hc
    exact hd ⟨b, hb, by simpa using hc⟩

/-- The byte is written and not yet flushed. -/
theorem no_update_lost_oneByte : ∃ s b, inRangeRuns.Reachable s ∧ s.cache.Holds b 0 0 ∧ (s.cache.bufs b).data 5 = 7 := by
  have h : ((((writeFlush 5).take 8).foldlM (fun (s : BSys) l => if s.inRange l then s.exec l else none)
      sevenSectors).map fun s => (s.hist 0 5, s.len 0, s.disk 0 5)) = some ([0, 7], 3584, 0) := by decide +kernel
  obtain ⟨s, hrun, he⟩ := map_eq_some_iff.1 h
  simp only [Prod.mk.injEq] at he
  have hr : inRangeRuns.Reachable s := ⟨_, _, ⟨_, _, rfl⟩, LTS.run_restrict_ofOption hrun⟩
  rcases no_update_lost (a := 5) (d := 0) hr (by simp [he]) with hc | ⟨b, hb, -, hc⟩ <;> simp [Current, he] at hc
  exact ⟨s, b, hr, hb, hc.symm⟩

/-! ## Reading -/

/-- No valid buffer of a block that a direct read in progress covers is given to another block. -/
def Undisturbed (s : BSys) (l : Label) : Prop :=
  s.inRange l = true ∧ ∀ t p cl span taken b a, s.exec l = some t → s.call p = some cl →
    cl.phase = .direct span taken → cl.addr ≤ a → a < cl.addr + span → s.cache.Holds b cl.dev (a / block) →
    (s.cache.bufs b).valid = true → t.cache.Holds b cl.dev (a / block) ∧ (t.cache.bufs b).valid = true

/-- The runs in which every step meets the condition. -/
abbrev undisturbedRuns : LTS BSys Label := system.restrict Undisturbed

/-- A byte under a direct read: it is in a valid buffer, or both the device and what has been taken
are new enough. -/
def Covered (s : BSys) (cl : Call) (taken : Nat → Option UInt8) (a : Nat) : Prop :=
  (∃ b, s.cache.Holds b cl.dev (a / block) ∧ (s.cache.bufs b).valid = true) ∨
  s.Fresh cl a (s.disk cl.dev a) ∧ ∀ v, taken a = some v → s.Fresh cl a v

structure Reads (s : BSys) : Prop where
  out : ∀ p cl off len, s.call p = some cl → cl.op = .read off len → ∀ i, i < cl.pos → off + i < s.len cl.dev →
    s.Fresh cl (off + i) (cl.out i)
  direct : ∀ p cl span taken, s.call p = some cl → cl.phase = .direct span taken →
    ∀ a, cl.addr ≤ a → a < cl.addr + span → a < s.len cl.dev → s.Covered cl taken a

/-- What is valid and what is new enough stays so. -/
lemma Covered.step (h : s.Covered cl taken a) (hf : Frame s t p) (hs : cl.since a < (s.hist cl.dev a).length)
    (hl : a < s.len cl.dev)
    (hb : ∀ b, s.cache.Holds b cl.dev (a / block) → (s.cache.bufs b).valid = true → t.cache.Holds b cl.dev (a / block) ∧
      (t.cache.bufs b).valid = true)
    : t.Covered cl taken a := by
  rcases h with ⟨b, h1, h2⟩ | ⟨h1, h2⟩
  · exact .inl ⟨b, hb b h1 h2⟩
  refine .inr ⟨?_, fun v hv => (h2 v hv).mono (hf.grows _ _)⟩
  rcases hf.disk cl.dev a hl with h3 | h3
  · rw [h3]
    exact h1.mono (hf.grows _ _)
  · exact h3.fresh (hs.trans_le (hf.grows _ _).length_le)

/-- When a direct read begins. -/
lemma Inv.covered (hi : Inv s) (hs : cl.since a < (s.hist cl.dev a).length) (hl : a < s.len cl.dev) :
    s.Covered cl (fun _ => none) a := by
  by_cases hv : ∃ b, s.cache.Holds b cl.dev (a / block) ∧ (s.cache.bufs b).valid = true
  · exact .inl hv
  refine .inr ⟨Current.fresh (hi.core.disk cl.dev a hl fun b hb => ?_) hs, by simp⟩
  rw [← Bool.not_eq_true]
  exact fun hd => hv ⟨b, hb, hi.core.dirtyValid b hb.1 hd⟩

/-- What a direct read returns. -/
lemma Covered.directByte (h : s.Covered cl taken a) (hi : Inv s) (hs : cl.since a < (s.hist cl.dev a).length)
    (hl : a < s.len cl.dev) : s.Fresh cl a (s.directByte cl.dev taken a) := by
  unfold Store.directByte
  split
  · rename_i b hb
    obtain ⟨hlk, hv⟩ := filter_eq_some_iff.1 hb
    have hh := hi.core.wf.lookup_eq_some.1 hlk
    have hcur := hi.core.content b hh.1 hv a hh.2.2.symm (hh.2.1.symm ▸ hl)
    rw [hh.2.1] at hcur
    exact hcur.fresh hs
  rename_i hb
  rcases h with ⟨b, h1, h2⟩ | ⟨h1, h2⟩
  · rw [hi.core.wf.lookup_eq_some.2 h1] at hb
    simp [h2] at hb
  cases ht : taken a with
  | none => exact h1
  | some v => exact h2 v ht

/-- The call goes on as it was, and not with a direct read. -/
def SameCall (s t : BSys) (p : Nat) : Prop :=
  ∀ cl', t.call p = some cl' → ∃ cl x, s.call p = some cl ∧ cl' = { cl with phase := x } ∧
    ∀ span taken, x ≠ .direct span taken

lemma sameCall_setPhase {x : Phase} (hc : s.call p = some cl) (ht : t.call = (s.setPhase p cl x).call)
    (hx : ∀ span taken, x ≠ .direct span taken) : SameCall s t p := by
  intro cl' hc'
  rw [ht] at hc'
  exact ⟨cl, x, hc, (Option.some.inj (called hc')).symm, hx⟩

lemma sameCall_refl (hc : s.call p = some cl) (hx : ∀ span taken, cl.phase ≠ .direct span taken) :
    SameCall s s p := by
  intro cl' hc'
  rw [hc] at hc'
  cases hc'
  exact ⟨cl, cl.phase, hc, rfl, hx⟩

lemma afterFlush_ne_direct (err : Int) (span : Nat) (taken : Nat → Option UInt8) :
    cl.afterFlush err ≠ .direct span taken := by
  unfold Call.afterFlush
  split
  · simp
  · simp
  · simp
  · split <;> simp

lemma writebackEnd_ne_direct {w : Writeback} (err : Int) (span : Nat) (taken : Nat → Option UInt8) :
    (if w.victim then .get else if err = 0 then .flushing else cl.afterFlush err) ≠ Phase.direct span taken := by
  split
  · simp
  split
  · simp
  · exact afterFlush_ne_direct _ _ _

/-- The steps that have nothing to do with the bytes a read returns. -/
lemma sameCall_exec (hl : match l with
    | .call _ _ _ _ | .loop _ _ | .take _ _ | .copy _ | .directDone _ _ => False
    | _ => True) (he : s.exec l = some t) : SameCall s t l.proc := by
  cases l
  case call | loop | take | copy | directDone => exact hl.elim
  all_goals obtain ⟨cl, hc, h⟩ := bind_eq_some_iff.1 he
  case filled ok =>
    split at h <;> cases h
    cases ok <;> exact sameCall_setPhase hc rfl (by simp)
  case land =>
    split at h
    · rename_i hph
      obtain ⟨v, -, h⟩ := bind_eq_some_iff.1 h
      cases h
      exact sameCall_refl hc (by simp [hph])
    · cases h
  case ret =>
    split at h <;> cases h
    intro cl' hc'
    cases called hc'
  -- the call sleeps, or it is in another phase
  all_goals
    repeat' split at h
    all_goals cases h
    all_goals first
      | exact sameCall_setPhase hc rfl (afterFlush_ne_direct _)
      | exact sameCall_setPhase hc rfl (writebackEnd_ne_direct _)
      | exact sameCall_setPhase hc rfl (by simp)
      | exact sameCall_refl hc (by simp [*])

section

variable (hr : Reads s)
include hr

/-- A step keeps what is said of the other calls, so only its own is to be looked at. -/
lemma Reads.step (hi : Inv s) (hu : s.Undisturbed l) (he : s.exec l = some t)
    (hown : Frame s t l.proc → ∀ cl, t.call l.proc = some cl →
      (∀ off len, cl.op = .read off len → ∀ i, i < cl.pos → off + i < s.len cl.dev → t.Fresh cl (off + i) (cl.out i)) ∧
      ∀ span taken, cl.phase = .direct span taken → ∀ a, cl.addr ≤ a → a < cl.addr + span → a < s.len cl.dev →
        t.Covered cl taken a) : Reads t := by
  have hf := (hi.exec hu.1 he).2
  constructor
  · intro q cl off len hc hop i hlt hl
    rw [hf.len] at hl
    by_cases hq : q = l.proc
    · exact (hown hf cl (hq ▸ hc)).1 off len hop i hlt hl
    rw [hf.calls q hq] at hc
    exact (hr.out q cl off len hc hop i hlt hl).mono (hf.grows _ _)
  intro q cl span taken hc hph a h1 h2 hl
  rw [hf.len] at hl
  by_cases hq : q = l.proc
  · exact (hown hf cl (hq ▸ hc)).2 span taken hph a h1 h2 hl
  rw [hf.calls q hq] at hc
  exact (hr.direct q cl span taken hc hph a h1 h2 hl).step hf (hi.since q cl a hc) hl fun b hb hv =>
    hu.2 t q cl span taken b a he hc hph h1 h2 hb hv

/-- A call whose bytes and operation are those of before. -/
lemma Reads.out_of_same (hf : Frame s t p) (hc : s.call q = some cl) {x : Phase} :
    ∀ off len, Call.op { cl with phase := x } = .read off len → ∀ i, i < cl.pos → off + i < s.len cl.dev →
      t.Fresh { cl with phase := x } (off + i) (cl.out i) := fun off len hop i hlt hl =>
  (hr.out q cl off len hc hop i hlt hl).mono (hf.grows _ _)

variable {late : Bool}

lemma reads_loop (hi : Inv s) (hu : s.Undisturbed (.loop p late)) (he : s.exec (.loop p late) = some t) :
    Reads t := by
  refine hr.step hi hu he fun hf cl' hc' => ?_
  obtain ⟨cl, hc, he⟩ := bind_eq_some_iff.1 he
  -- the call moves to another phase; a direct read begins covered
  obtain ⟨x, rfl, hx⟩ : ∃ x, cl' = { cl with phase := x } ∧ ∀ span taken, x = .direct span taken →
      taken = (fun _ => none) ∧ t.toStore = s.toStore := by
    have hto : ∀ x : Phase, t = s.setPhase p cl x → (∀ span taken, x = .direct span taken → taken = fun _ => none) →
        ∃ x, cl' = { cl with phase := x } ∧ ∀ span taken, x = .direct span taken →
          taken = (fun _ => none) ∧ t.toStore = s.toStore := by
      rintro x rfl hx
      exact ⟨x, (Option.some.inj (called hc')).symm, fun span taken h => ⟨hx span taken h, rfl⟩⟩
    repeat' split at he
    all_goals cases he
    all_goals
      refine hto _ rfl fun span taken h => ?_
      cases h
    rfl
  refine ⟨hr.out_of_same hf hc, fun span taken hph a _ _ hl => ?_⟩
  obtain ⟨rfl, hst⟩ := hx span taken hph
  have hcov : s.Covered { cl with phase := x } (fun _ => none) a := hi.covered (hi.since p cl a hc) hl
  unfold Covered at hcov ⊢
  rw [hst]
  exact hcov

lemma reads_take (hi : Inv s) (hu : s.Undisturbed (.take p a)) (he : s.exec (.take p a) = some t) : Reads t := by
  refine hr.step hi hu he fun hf cl' hc' => ?_
  obtain ⟨cl, hc, he⟩ := bind_eq_some_iff.1 he
  split at he
  · cases he
    obtain ⟨cl₀, x, hc₀, rfl, hx⟩ := sameCall_setPhase (x := .fill _ _) hc rfl (by simp) cl' hc'
    exact ⟨hr.out_of_same hf hc₀, fun span taken hph => absurd hph (hx span taken)⟩
  · rename_i span taken hph
    cases he
    cases called hc'
    refine ⟨hr.out_of_same hf hc, fun span' taken' hph' a' h1 h2 hl => ?_⟩
    cases hph'
    rcases hr.direct p cl span taken hc hph a' h1 h2 hl with h3 | ⟨h3, h4⟩
    · exact .inl h3
    refine .inr ⟨h3, fun v hv => ?_⟩
    by_cases haa : a' = a
    · subst haa
      rw [update_self] at hv
      cases hv
      exact h3
    · rw [update_of_ne haa] at hv
      exact h4 v hv
  · cases he

lemma reads_copy (hi : Inv s) (hu : s.Undisturbed (.copy p)) (he : s.exec (.copy p) = some t) : Reads t := by
  refine hr.step hi hu he fun hf cl' hc' => ?_
  obtain ⟨cl, hc, he⟩ := bind_eq_some_iff.1 he
  split at he
  · rename_i b off len hph hop
    cases he
    cases called hc'
    refine ⟨fun off' len' hop' i hlt hl => ?_, (by simp)⟩
    have hop' : cl.op = .read off' len' := hop'
    rw [hop] at hop'
    cases hop'
    show s.Fresh cl (off + i) (if _ then _ else _)
    split
    · -- the bytes of this block: the buffer is valid, since a read overwrites nothing
      rename_i hin
      obtain ⟨-, hb, hv, -⟩ := hi.holding hc hph
      have hv : (s.cache.bufs b).valid = true := hv.resolve_left fun h => by
        unfold Call.whole at h
        rw [hop] at h
        cases h
      have haddr : cl.addr = off + cl.pos := by
        unfold Call.addr
        rw [hop]
      have hchunk : cl.chunk ≤ block - cl.addr % block := min_le_left _ _
      have hblk : (off + i) / block = cl.addr / block := by
        simp only [block] at hchunk ⊢
        omega
      have hmod : (off + i) % block = cl.addr % block + (i - cl.pos) := by
        simp only [block] at hchunk ⊢
        omega
      have hl : off + i < s.len cl.dev := hl
      have hcur := hi.core.content b hb.1 hv (off + i) (hblk.trans hb.2.2.symm) (hb.2.1.symm ▸ hl)
      rw [hb.2.1, hmod] at hcur
      exact (hcur.fresh (hi.since p cl _ hc)).mono (hf.grows _ _)
    · rename_i hnot
      refine (hr.out p cl off len hc hop i ?_ hl).mono (hf.grows _ _)
      have hlt : i < cl.pos + cl.chunk := hlt
      omega
  · rename_i hop
    cases he
    cases called hc'
    refine ⟨fun off' len' hop' => ?_, (by simp)⟩
    cases hop.symm.trans hop'
  · cases he

lemma reads_directDone {ok : Bool} (hi : Inv s) (hu : s.Undisturbed (.directDone p ok))
    (he : s.exec (.directDone p ok) = some t) : Reads t := by
  refine hr.step hi hu he fun hf cl' hc' => ?_
  obtain ⟨cl, hc, he⟩ := bind_eq_some_iff.1 he
  split at he
  swap
  · cases he
  rename_i span taken hph
  split at he
  · cases he
    cases called hc'
    refine ⟨fun off len hop i hlt hl => ?_, (by simp)⟩
    have hop : cl.op = .read off len := hop
    have haddr : cl.addr = off + cl.pos := by
      unfold Call.addr
      rw [hop]
    show s.Fresh cl (off + i) (if _ then _ else _)
    split
    · rename_i hin
      rw [show cl.addr + (i - cl.pos) = off + i by omega]
      exact (hr.direct p cl span taken hc hph (off + i) (by omega) (by omega) hl).directByte hi (hi.since p cl _ hc) hl
    rename_i hnot
    refine hr.out p cl off len hc hop i ?_ hl
    have hlt : i < cl.pos + span := hlt
    omega
  · cases he
    obtain ⟨cl₀, x, hc₀, rfl, hx⟩ := sameCall_setPhase (x := .done (-5)) hc rfl (by simp) cl' hc'
    exact ⟨hr.out_of_same hf hc₀, fun span taken hph => absurd hph (hx span taken)⟩

lemma reads_call {op : Op} (hi : Inv s) (hu : s.Undisturbed (.call p d op late))
    (he : s.exec (.call p d op late) = some t) : Reads t := by
  refine hr.step hi hu he fun _ cl' hc' => ?_
  rw [exec] at he
  have hto : ∀ x : Phase, t = s.setPhase p ⟨d, op, 0, fun _ => 0, fun a => (s.hist d a).length - 1, .loop⟩ x →
      (∀ span taken, x ≠ .direct span taken) → cl'.pos = 0 ∧ ∀ span taken, cl'.phase ≠ .direct span taken := by
    rintro x rfl hx
    cases called hc'
    exact ⟨rfl, hx⟩
  have hnew : cl'.pos = 0 ∧ ∀ span taken, cl'.phase ≠ .direct span taken := by
    split at he
    · cases he
    cases op with
    | read off len | flusher =>
      cases he
      refine hto _ rfl fun span taken => ?_
      split <;> simp
    | write off len src | flush =>
      cases he
      exact hto _ rfl (by simp)
  refine ⟨fun off len _ i hlt => ?_, fun span taken hph => absurd hph (hnew.2 span taken)⟩
  rw [hnew.1] at hlt
  exact absurd hlt (Nat.not_lt_zero i)

lemma Reads.exec (hi : Inv s) (hu : s.Undisturbed l) (he : s.exec l = some t) : Reads t := by
  have hsame : SameCall s t l.proc → Reads t := fun h => by
    refine hr.step hi hu he fun hf cl' hc' => ?_
    obtain ⟨cl, x, hc, rfl, hx⟩ := h cl' hc'
    exact ⟨hr.out_of_same hf hc, fun span taken hph => absurd hph (hx span taken)⟩
  cases l with
  | call p d op late => exact reads_call hr hi hu he
  | loop p late => exact reads_loop hr hi hu he
  | take p a => exact reads_take hr hi hu he
  | copy p => exact reads_copy hr hi hu he
  | directDone p ok => exact reads_directDone hr hi hu he
  | scan | get | bread | filled | land | wrote | rawFlushed | ret => exact hsame (sameCall_exec trivial he)

end

lemma reachable_reads (h : undisturbedRuns.Reachable s) : Inv s ∧ Reads s := by
  refine LTS.Inductive.reachable (I := fun s => Inv s ∧ Reads s) ⟨?_, ?_⟩ h
  · rintro s ⟨len, disk, rfl⟩
    exact ⟨start_inv len disk, nofun, nofun⟩
  intro s l t hs hstep
  exact ⟨(hs.1.exec hstep.1.1 hstep.2).1, hs.2.exec hs.1 hstep.1 hstep.2⟩

/-- In every state of these runs: each byte that `bc_read` has put out is a value the byte had when the
call began or was given since, and when the call returns 0 all of them are put out. -/
theorem read_linearizable (h : undisturbedRuns.Reachable s) (hc : s.call p = some cl) {off len : Nat}
    (hop : cl.op = .read off len) :
    (∀ i, i < cl.pos → off + i < s.len cl.dev →
      ∃ n, cl.since (off + i) ≤ n ∧ (s.hist cl.dev (off + i))[n]? = some (cl.out i)) ∧
    (cl.phase = .done 0 → len ≤ cl.pos) := by
  obtain ⟨hi, hr⟩ := reachable_reads h
  refine ⟨hr.out p cl off len hc hop, fun hph => ?_⟩
  have hok := hi.phase p cl hc
  rw [PhaseOk, hph] at hok
  have := hok.2 off len hop rfl
  unfold Call.left at this
  rw [hop] at this
  exact Nat.sub_eq_zero_iff_le.1 this

/-- What a state says about a read and one of its bytes. -/
structure ReadView where
  dev : Nat
  off : Nat
  pos : Nat
  since : Nat
  deriving DecidableEq

def readOf (s : BSys) (p a : Nat) : Option ReadView :=
  match s.call p with
  | some ⟨d, .read off _, pos, _, since, _⟩ => some ⟨d, off, pos, since a⟩
  | _ => none

lemma readOf_eq_some {off pos : Nat} (h : s.readOf p a = some ⟨d, off, pos, n⟩) :
    ∃ cl len, s.call p = some cl ∧ cl.op = .read off len ∧ cl.dev = d ∧ cl.pos = pos ∧ cl.since a = n := by
  unfold readOf at h
  split at h
  · rename_i hc
    obtain ⟨rfl, rfl, rfl, rfl⟩ := h
    exact ⟨_, _, hc, rfl, rfl, rfl, rfl⟩
  · cases h

/-- Only process 0 runs, and not in a direct read. -/
def alone (s : BSys) (l : Label) : Bool := s.inRange l && l.proc == 0 && match s.call 0 with
    | some ⟨_, _, _, _, _, .direct _ _⟩ => false
    | _ => true

lemma undisturbed_of_alone (hq : ∀ q, q ≠ 0 → s.call q = none) (ha : s.alone l = true) : s.Undisturbed l := by
  simp only [alone, Bool.and_eq_true] at ha
  refine ⟨ha.1.1, fun t p cl span taken b a _ hc hph => ?_⟩
  by_cases hp : p = 0
  · subst hp
    obtain ⟨d, op, pos, out, since, ph⟩ := cl
    cases hph
    simp [hc] at ha
  · rw [hq p hp] at hc
    cases hc

lemma run_undisturbed_of_alone {ls : List Label} (h : (system.restrict fun s l => s.alone l = true).Run s ls t)
    (hi : Inv s) (hq : ∀ q, q ≠ 0 → s.call q = none) : undisturbedRuns.Run s ls t := by
  induction h with
  | nil s => exact .nil s
  | cons hstep _ ih =>
    have hu := undisturbed_of_alone hq hstep.1
    obtain ⟨hi', hf⟩ := hi.exec hu.1 hstep.2
    refine .cons ⟨hu, hstep.2⟩ (ih hi' fun q hq0 => ?_)
    have ha := hstep.1
    simp only [alone, Bool.and_eq_true, beq_iff_eq] at ha
    rw [hf.calls q (ha.1.2.symm ▸ hq0)]
    exact hq q hq0

/-- One byte is written and read back. -/
def writeRead : List Label :=
  [.call 0 0 (.write 5 1 fun _ => 7) false, .loop 0 false, .get 0 true true, .bread 0 fun _ => true,
    .filled 0 true, .copy 0, .loop 0 false, .ret 0,
    .call 0 0 (.read 5 1) false, .loop 0 false, .get 0 true true, .bread 0 fun _ => true, .copy 0]

theorem read_linearizable_oneByte : ∃ s cl len, undisturbedRuns.Reachable s ∧ s.call 0 = some cl ∧
    cl.op = .read 5 len ∧ cl.pos = 1 ∧ cl.out 0 = 7 := by
  have h : ((writeRead.foldlM (fun (s : BSys) l => if s.alone l then s.exec l else none) sevenSectors).map
      fun s => (s.readOf 0 5, s.hist 0 5, s.len 0)) = some (some ⟨0, 5, 1, 1⟩, [0, 7], 3584) := by decide +kernel
  obtain ⟨s, hrun, he⟩ := map_eq_some_iff.1 h
  simp only [Prod.mk.injEq] at he
  have hr : undisturbedRuns.Reachable s := ⟨_, _, ⟨_, _, rfl⟩,
    run_undisturbed_of_alone (LTS.run_restrict_ofOption hrun) (start_inv _ _) fun _ _ => rfl⟩
  obtain ⟨cl, len, hc, hop, hd, hpos, hs⟩ := readOf_eq_some he.1
  refine ⟨s, cl, len, hr, hc, hop, hpos, ?_⟩
  obtain ⟨n, hn, hv⟩ := (read_linearizable hr hc hop).1 0 (by rw [hpos]; decide) (by rw [hd, he.2.2]; decide)
  rw [hs] at hn
  rw [hd, he.2.1] at hv
  match n, hn, hv with
  | 1, _, hv => simpa using hv.symm
  | n + 2, _, hv => simp at hv

/-- Whether a call has returned 0, and the first byte it put out. -/
def firstByte (cl : Call) : Bool × UInt8 := (match cl.phase with
    | .done r => r == 0
    | _ => false, cl.out 0)

lemma firstByte_eq {v : UInt8} (h : firstByte cl = (true, v)) : cl.phase = .done 0 ∧ cl.out 0 = v := by
  unfold firstByte at h
  split at h
  · rename_i hph
    simp only [Prod.mk.injEq, beq_iff_eq] at h
    obtain ⟨rfl, rfl⟩ := h
    exact ⟨hph, rfl⟩
  · simp at h

/-- Process 0 writes the first block and returns. Process 1 then reads 64 KiB past the cache; after
its device read has taken the first byte, process 0 reads another block, for which the dirty
buffer of the first one is written back and taken away. -/
def evictUnderRead : List Label :=
  [.call 0 0 (.write 0 4096 fun _ => 7) false, .loop 0 false, .get 0 true true, .bread 0 fun _ => true,
    .copy 0, .loop 0 false, .ret 0,
    .call 1 0 (.read 0 65536) false, .loop 1 false, .take 1 0,
    .call 0 0 (.read 409600 1) false, .loop 0 false, .get 0 false true, .wrote 0 true, .get 0 false true,
    .bread 0 fun _ => false, .filled 0 true, .copy 0, .loop 0 false, .ret 0,
    .directDone 1 true, .loop 1 false]

/-- The read returns 0 with the byte from before a write that had completed when it began. -/
theorem direct_read_stale : ∃ s cl len, system.Reachable s ∧ s.call 1 = some cl ∧ cl.op = .read 0 len ∧
    cl.dev = 0 ∧ cl.phase = .done 0 ∧ cl.pos = 65536 ∧ cl.since 0 = 1 ∧ s.hist 0 0 = [0, 7] ∧ cl.out 0 = 0 := by
  have h : ((evictUnderRead.foldlM exec (start (fun _ => 1048576) fun _ _ => 0)).map fun s =>
      (s.readOf 1 0, s.hist 0 0, (s.call 1).map firstByte)) =
        some (some ⟨0, 0, 65536, 1⟩, [0, 7], some (true, 0)) := by decide +kernel
  obtain ⟨s, hrun, he⟩ := map_eq_some_iff.1 h
  simp only [Prod.mk.injEq] at he
  obtain ⟨cl, len, hc, hop, hd, hpos, hs⟩ := readOf_eq_some he.1
  have hout := he.2.2
  rw [hc, map_some, Option.some.injEq] at hout
  obtain ⟨hph, hout⟩ := firstByte_eq hout
  exact ⟨s, cl, len, ⟨_, _, ⟨_, _, rfl⟩, LTS.run_ofOption hrun⟩, hc, hop, hd, hph, hpos, hs, he.2.1, hout⟩

/-! ## The raw requests -/

/-- The raw requests that a step begins: on device `d`, `n` bytes from `off` on. -/
def Issues (t : BSys) (l : Label) (d off n : Nat) : Prop := ∃ cl, t.call l.proc = some cl ∧ match l, cl.phase with
    -- without pages to collect a run in, its blocks are read one at a time
    | .bread _ _, .fill run _ => d = cl.dev ∧ ∃ r, (r = run ∨ ∃ x ∈ run, r = [x]) ∧ off = t.runOff r ∧ n = t.runLen r
    | .loop _ _, .direct span _ => d = cl.dev ∧ off = cl.addr ∧ n = span
    | _, .write w => d = t.devOf w ∧ off = t.runOff w.req ∧ n = t.runLen w.req
    | _, _ => False

/-- It covers bytes of the device if all its blocks after the first begin there. -/
lemma request_inside {s : Store} {r : List Nat} (h : s.cache.Consecutive d k r)
    (hr : ∀ i, i + 1 < r.length → blockLen (s.len d) (k + 1 + i) ≠ 0) (h1 : s.runOff r ≤ a)
    (h2 : a < s.runOff r + s.runLen r) : a < s.len d := by
  cases hlen : r.length with
  | zero =>
    rw [List.length_eq_zero_iff.1 hlen] at h2
    exact absurd h2 (Nat.not_lt_zero a)
  | succ n =>
    obtain ⟨hoff, hn⟩ := request_eq h hlen
    rw [hoff] at h1 h2
    have hlast := hr (n - 1)
    simp only [hn, hlen, blockLen, block] at h1 h2 hlast
    split at h2
    · rename_i hle
      cases n with
      | zero => omega
      | succ n =>
        have hne := hlast (by omega)
        split at hne
        · exact absurd rfl hne
        · omega
    · omega

/-- **Raw requests stay in the partition.** In a run whose writes lie in their device, every step that serves a read in
its device, or no read, begins only raw requests for bytes of the device. -/
theorem raw_inside (h : inRangeRuns.Reachable s) (hl : s.inRange l = true)
    (hread : ∀ cl off len, s.call l.proc = some cl → cl.op = .read off len → off + len ≤ s.len cl.dev)
    (he : s.exec l = some t) {off n : Nat} (hi : t.Issues l d off n) (h1 : off ≤ a) (h2 : a < off + n) : a < s.len d := by
  obtain ⟨hs, hf⟩ := (reachable_inv h).exec hl he
  rw [← hf.len]
  obtain ⟨cl, hc, hi⟩ := hi
  have hok := hs.phase _ cl hc
  split at hi
  · rename_i mem run taken hph
    rw [PhaseOk, hph] at hok
    obtain ⟨rfl, r, hr, rfl, rfl⟩ := hi
    have hcons := hok.2.consecutive
    rcases hr with rfl | ⟨x, hx, rfl⟩
    · refine request_inside hcons (fun i hi => ?_) h1 h2
      -- the blocks after the first are read ahead
      obtain ⟨cl₀, hc₀, he⟩ := bind_eq_some_iff.1 he
      repeat' split at he
      all_goals cases he
      all_goals cases called hc
      all_goals cases hph
      exact readAhead_blockLen _ _ _ i (Nat.lt_of_succ_lt_succ hi)
    · refine request_inside (k := (t.cache.bufs x).blkno) (fun i y hy => ?_) (by simp) h1 h2
      cases i with
      | zero =>
        cases hy
        exact ⟨(hcons.mem hx).1.1, (hcons.mem hx).1.2.1, rfl⟩
      | succ i => simp at hy
  · rename_i hph
    obtain ⟨rfl, rfl, rfl⟩ := hi
    obtain ⟨cl₀, hc₀, he⟩ := bind_eq_some_iff.1 he
    repeat' split at he
    all_goals cases he
    all_goals cases called hc
    all_goals cases hph
    rename_i off len _ hop _ _
    have := hread cl₀ off len hc₀ hop
    have hspan := Nat.div_mul_le_self cl₀.left block
    simp only [Call.addr, Call.left, hop] at *
    show a < s.len cl₀.dev
    omega
  · rename_i hph
    rw [PhaseOk, hph] at hok
    obtain ⟨rfl, rfl, rfl⟩ := hi
    obtain ⟨k, n, -, -, hoff, hlen, hlast⟩ := hok.1.request hs.core
    rw [hoff] at h1 h2
    rw [hlen] at h2
    simp only [block] at h1 h2 hlast
    omega
  · exact hi.elim

/-- Process 0 has begun to read 64 KiB of a device of `len` bytes. -/
def bigRead (len : Nat) : BSys :=
  (start (fun _ => len) fun _ _ => 0).setCall 0 (some ⟨0, .read 0 65536, 0, fun _ => 0, fun _ => 0, .loop⟩)

lemma bigRead_run (len : Nat) {ok : BSys → Label → Prop} (hok : ∀ s, ok s (.call 0 0 (.read 0 65536) false)) :
    (system.restrict ok).Reachable (bigRead len) :=
  ⟨_, [_], ⟨_, _, rfl⟩, .cons ⟨hok _, rfl⟩ (.nil _)⟩

lemma bigRead_issues (len : Nat) : ∃ t, (bigRead len).exec (.loop 0 false) = some t ∧
    t.Issues (.loop 0 false) 0 0 65536 := ⟨_, rfl, _, rfl, rfl, rfl, rfl⟩

theorem raw_inside_bigRead : ∃ t, (bigRead 65536).exec (.loop 0 false) = some t ∧ t.Issues (.loop 0 false) 0 0 65536 ∧
    ∀ a < 65536, a < (bigRead 65536).len 0 := by
  obtain ⟨t, he, hi⟩ := bigRead_issues 65536
  refine ⟨t, he, hi, fun a ha => raw_inside (bigRead_run _ fun _ => rfl) rfl ?_ he hi (Nat.zero_le a) (by omega)⟩
  intro cl off len hc hop
  cases hc
  cases hop
  decide

/-- `direct_read` asks for 64 KiB of a device of seven sectors. -/
theorem direct_read_outside : ∃ s l t d off n a, system.Reachable s ∧ s.exec l = some t ∧ t.Issues l d off n ∧
    off ≤ a ∧ a < off + n ∧ s.len d ≤ a := by
  obtain ⟨t, he, hi⟩ := bigRead_issues 3584
  obtain ⟨s₀, ls, h0, hrun⟩ := @bigRead_run 3584 (fun _ _ => True) fun _ => trivial
  exact ⟨bigRead 3584, _, t, 0, 0, 65536, 3584, ⟨s₀, ls, h0, hrun.weaken⟩, he, hi, by decide⟩

end BSys

end Hermes.L4.Bcache
