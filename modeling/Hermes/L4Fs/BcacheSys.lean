import Hermes.L4Fs.BcacheInv

/-!
# The contents of the buffer cache over whole runs

A valid buffer has the last value of each of its bytes, and so has the device
unless a buffer with the byte is dirty. Every step keeps that, if the writes lie
in their device: `flush_durable` and `read_linearizable` follow.
-/
namespace Hermes.L4.Bcache

open Cache Function List Option

/-- The buffers that a call has claimed. -/
def Phase.owns : Phase → List Nat
  | .got b | .holds b => [b]
  | .fill run _ => run
  | .write w => w.run
  | .loop | .flushing | .get | .direct _ _ | .rawFlush | .done _ => []

variable {c : Cache} {xs : List Nat} {f : Nat → Nat → UInt8}

namespace Store

variable {s t : Store} {b d k x a : Nat} {cl : Call} {w : Writeback} {v : UInt8}

/-- The last value of a byte. -/
def Current (s : Store) (d a : Nat) (v : UInt8) : Prop := (s.hist d a).getLast? = some v

/-- A value that a byte had when the call began, or later. -/
def Fresh (s : Store) (cl : Call) (a : Nat) (v : UInt8) : Prop := ∃ n, cl.since a ≤ n ∧ (s.hist cl.dev a)[n]? = some v

lemma Current.fresh (h : s.Current cl.dev a v) (hs : cl.since a < (s.hist cl.dev a).length) : s.Fresh cl a v := by
  unfold Current at h
  rw [List.getLast?_eq_getElem?] at h
  exact ⟨_, by omega, h⟩

lemma Fresh.mono (h : s.Fresh cl a v) (hp : s.hist cl.dev a <+: t.hist cl.dev a) : t.Fresh cl a v := by
  obtain ⟨n, hn, hv⟩ := h
  obtain ⟨l, hl⟩ := hp
  refine ⟨n, hn, ?_⟩
  rw [← hl]
  rw [List.getElem?_append_left (List.getElem?_eq_some_iff.1 hv).1]
  exact hv

/-! ## The contents -/

structure Core (s : Store) : Prop where
  wf : s.cache.Wf
  histNe : ∀ d a, s.hist d a ≠ []
  content : ∀ b, b < s.cache.nbufs → (s.cache.bufs b).valid = true → ∀ a, a / block = (s.cache.bufs b).blkno →
    a < s.len (s.cache.bufs b).dev → s.Current (s.cache.bufs b).dev a ((s.cache.bufs b).data (a % block))
  disk : ∀ d a, a < s.len d → (∀ b, s.cache.Holds b d (a / block) → (s.cache.bufs b).dirty = false) →
    s.Current d a (s.disk d a)
  range : ∀ b, b < s.cache.nbufs → (s.cache.bufs b).dirty = true →
    (s.cache.bufs b).blkno * block < s.len (s.cache.bufs b).dev
  dirtyValid : ∀ b, b < s.cache.nbufs → (s.cache.bufs b).dirty = true → (s.cache.bufs b).valid = true

/-- What is asked of one buffer. -/
def BufOk (s : Store) (x : Buf) : Prop :=
  (x.valid = true → ∀ a, a / block = x.blkno → a < s.len x.dev → s.Current x.dev a (x.data (a % block))) ∧
  (x.dirty = true → x.blkno * block < s.len x.dev ∧ x.valid = true)

lemma Core.bufOk (h : Core s) (hb : b < s.cache.nbufs) : s.BufOk (s.cache.bufs b) :=
  ⟨h.content b hb, fun hd => ⟨h.range b hb hd, h.dirtyValid b hb hd⟩⟩

/-- Another cache, with its buffers in order: each one that held a dirty block still does, or the device has its bytes. -/
lemma Core.recache (h : Core s) (hw : c.Wf) (hbuf : ∀ b, b < c.nbufs → s.BufOk (c.bufs b))
    (hdirty : ∀ b d a, s.cache.Holds b d (a / block) → a < s.len d → c.Holds b d (a / block) ∧
      (c.bufs b).dirty = (s.cache.bufs b).dirty ∨ (s.cache.bufs b).dirty = false ∨ s.Current d a (s.disk d a)) :
    Core { s with cache := c } where
  wf := hw
  histNe := h.histNe
  content b hb := (hbuf b hb).1
  disk d a hl hd := by
    by_cases hcur : s.Current d a (s.disk d a)
    · exact hcur
    refine h.disk d a hl fun b hb => ?_
    rcases hdirty b d a hb hl with ⟨h1, h2⟩ | h1 | h1
    · exact h2.symm.trans (hd b h1)
    · exact h1
    · exact absurd h1 hcur
  range b hb hd := ((hbuf b hb).2 hd).1
  dirtyValid b hb hd := ((hbuf b hb).2 hd).2

/-- A buffer that is as before still holds its block. -/
lemma holds_of_eq {c' : Cache} (h : c'.bufs b = c.bufs b) (hb : b < c'.nbufs) (hh : c.Holds b d k) :
    c'.Holds b d k ∧ (c'.bufs b).dirty = (c.bufs b).dirty := by
  refine ⟨⟨hb, ?_⟩, ?_⟩ <;> rw [h]
  exact hh.2

/-- Claims and releases. -/
lemma Core.sameData (h : Core s) (hs : SameData s.cache c) (hw : c.Wf) : Core { s with cache := c } := by
  refine h.recache hw (fun b hb => ?_) fun b d a hb _ => .inl ⟨hs.holds.2 hb, hs.dirty b⟩
  obtain ⟨v, hv⟩ := hs.bufs b
  rw [hv]
  exact h.bufOk (hs.nbufs ▸ hb)

/-- Buffers are taken for other blocks. -/
lemma Core.takes (h : Core s) (ht : Takes s.cache c xs) (hw : c.Wf) : Core { s with cache := c } := by
  refine h.recache hw (fun b hb => ?_) fun b d a hb _ => ?_
  · by_cases hx : b ∈ xs
    · obtain ⟨h1, h2, -⟩ := ht.fresh b hx
      exact ⟨fun hv => absurd (h1.symm.trans hv) (by decide), fun hd => absurd (h2.symm.trans hd) (by decide)⟩
    rw [ht.others b hx]
    exact h.bufOk (((ht.nbufs b).1 hb).resolve_right hx)
  · by_cases hx : b ∈ xs
    · exact .inr (.inl (ht.idle b hx hb.1).2)
    · exact .inl (holds_of_eq (ht.others b hx) ((ht.nbufs b).2 (.inl hb.1)) hb)

/-- Bytes reach a device that have their last value. -/
lemma Core.land (h : Core s) (hf : ∀ d a, a < s.len d → f d a = s.disk d a ∨ s.Current d a (f d a)) :
    Core { s with disk := f } where
  __ := h
  disk d a hl hd := by
    rcases hf d a hl with h1 | h1
    · show s.Current d a (f d a)
      rw [h1]
      exact h.disk d a hl hd
    · exact h1

/-- Buffers are marked clean whose bytes are all on the device. -/
lemma Core.clean (h : Core s) (hw : c.Wf) (hn : c.nbufs = s.cache.nbufs)
    (hbufs : ∀ y, c.bufs y = if y ∈ xs then { s.cache.bufs y with dirty := false } else s.cache.bufs y)
    (hd : ∀ x ∈ xs, ∀ a, a / block = (s.cache.bufs x).blkno → a < s.len (s.cache.bufs x).dev →
      s.Current (s.cache.bufs x).dev a (s.disk (s.cache.bufs x).dev a))
    : Core { s with cache := c } := by
  refine h.recache hw (fun b hb => ?_) fun b d a hb hl => ?_
  · have hok := h.bufOk (hn ▸ hb)
    rw [hbufs]
    split
    · exact ⟨hok.1, nofun⟩
    · exact hok
  · by_cases hx : b ∈ xs
    · obtain ⟨-, rfl, hk⟩ := hb
      exact .inr (.inr (hd b hx a hk.symm hl))
    · exact .inl (holds_of_eq (by rw [hbufs, if_neg hx]) (hn ▸ hb.1) hb)

/-- Buffers that are clean get the contents of their blocks. -/
lemma Core.fill (h : Core s) (hw : c.Wf) (hn : c.nbufs = s.cache.nbufs)
    (hold : ∀ y, y ∉ xs → c.bufs y = s.cache.bufs y)
    (hnew : ∀ x ∈ xs, (s.cache.bufs x).dirty = false ∧ (c.bufs x).dirty = false)
    (hd : ∀ x ∈ xs, ∀ a, a / block = (c.bufs x).blkno → a < s.len (c.bufs x).dev →
      s.Current (c.bufs x).dev a ((c.bufs x).data (a % block)))
    : Core { s with cache := c } := by
  refine h.recache hw (fun b hb => ?_) fun b d a hb hl => ?_
  · by_cases hx : b ∈ xs
    · exact ⟨fun _ => hd b hx, fun hbd => absurd ((hnew b hx).2.symm.trans hbd) (by decide)⟩
    rw [hold b hx]
    exact h.bufOk (hn ▸ hb)
  · by_cases hx : b ∈ xs
    · exact .inr (.inl (hnew b hx).1)
    · exact .inl (holds_of_eq (hold b hx) (hn ▸ hb.1) hb)

/-- A buffer is written to, and the history of its block with it. -/
lemma Core.store {f : Nat → Nat → List UInt8} (h : Core s) (hw : c.Wf) (hn : c.nbufs = s.cache.nbufs)
    (hb : b < s.cache.nbufs) (hold : ∀ y, y ≠ b → c.bufs y = s.cache.bufs y)
    (hdev : (c.bufs b).dev = (s.cache.bufs b).dev) (hblk : (c.bufs b).blkno = (s.cache.bufs b).blkno)
    (hval : (c.bufs b).valid = true) (hdirty : (c.bufs b).dirty = true)
    (hr : (s.cache.bufs b).blkno * block < s.len (s.cache.bufs b).dev) (hne : ∀ d a, f d a ≠ [])
    (hf : ∀ d a, ¬ s.cache.Holds b d (a / block) → f d a = s.hist d a)
    (hcur : ∀ a, a / block = (s.cache.bufs b).blkno → a < s.len (s.cache.bufs b).dev →
      (f (s.cache.bufs b).dev a).getLast? = some ((c.bufs b).data (a % block))) :
    Core { s with cache := c, hist := f } := by
  have hbuf : ∀ y, y < c.nbufs → BufOk { s with cache := c, hist := f } (c.bufs y) := by
    intro y hy
    by_cases hyb : y = b
    · subst hyb
      refine ⟨fun _ a ha hl => ?_, fun _ => ⟨by rw [hblk, hdev]; exact hr, hval⟩⟩
      rw [hdev] at hl ⊢
      exact hcur a (hblk ▸ ha) hl
    rw [hold y hyb]
    have hy : y < s.cache.nbufs := hn ▸ hy
    refine ⟨fun hv a ha hl => ?_, (h.bufOk hy).2⟩
    show (f (s.cache.bufs y).dev a).getLast? = _
    rw [hf]
    · exact h.content y hy hv a ha hl
    · exact fun hh => hyb (h.wf.unique y b _ _ ⟨hy, rfl, rfl⟩ (ha ▸ hh))
  refine ⟨hw, hne, fun y hy => (hbuf y hy).1, fun d a hl hall => ?_, fun y hy hd => ((hbuf y hy).2 hd).1,
    fun y hy hd => ((hbuf y hy).2 hd).2⟩
  show (f d a).getLast? = some (s.disk d a)
  have hnot : ¬ s.cache.Holds b d (a / block) := fun hh =>
    absurd (hdirty.symm.trans (hall b ⟨hn ▸ hb, hdev.trans hh.2.1, hblk.trans hh.2.2⟩)) (by decide)
  rw [hf d a hnot]
  refine h.disk d a hl fun y hy => ?_
  have hyb : y ≠ b := fun he => hnot (he ▸ hy)
  obtain ⟨h1, h2⟩ := holds_of_eq (hold y hyb) (hn ▸ hy.1) hy
  exact h2.symm.trans (hall y h1)

/-! ## What a call is in the middle of -/

/-- `writeback_cluster` in progress: a run of dirty blocks that are not written to meanwhile. -/
structure WriteOk (s : Store) (w : Writeback) : Prop where
  mem : w.b ∈ w.run
  consecutive : ∃ first, s.cache.Consecutive (s.devOf w) first w.run
  dirty : ∀ x ∈ w.run, (s.cache.bufs x).dirty = true
  /-- what is in no request any more has reached the device -/
  split : ∃ pre, w.run = pre ++ (w.req ++ w.rest) ∧ ∀ x ∈ pre, ∀ a, a / block = (s.cache.bufs x).blkno →
    a < s.len (s.devOf w) → s.Current (s.devOf w) a (s.disk (s.devOf w) a)
  req : w.req ≠ []
  staging : ∀ f, w.staging = some f → ∀ x ∈ w.run, f x = (s.cache.bufs x).data

lemma consecutive_middle {first : Nat} {pre req rest : List Nat} (h : c.Consecutive d first (pre ++ (req ++ rest))) :
    c.Consecutive d (first + pre.length) req := by
  intro i x hx
  have hi := (List.getElem?_eq_some_iff.1 hx).1
  have := h (pre.length + i) x (by
    rw [List.getElem?_append_right (by omega), Nat.add_sub_cancel_left, List.getElem?_append_left hi]
    exact hx)
  rw [← add_assoc] at this
  exact this

/-- The request for a run of blocks. -/
lemma request_eq {req : List Nat} {n : Nat} (h : s.cache.Consecutive d k req) (hn : req.length = n + 1) :
    s.runOff req = k * block ∧ s.runLen req = n * block + blockLen (s.len d) (k + n) := by
  obtain ⟨x, hx⟩ : ∃ x, req[0]? = some x := ⟨_, List.getElem?_eq_getElem (by omega)⟩
  obtain ⟨y, hy⟩ : ∃ y, req[n]? = some y := ⟨_, List.getElem?_eq_getElem (by omega)⟩
  unfold runOff runLen
  rw [List.head?_eq_getElem?, List.getLast?_eq_getElem?, hn, Nat.add_sub_cancel, hx, hy]
  simp [(h 0 x hx).2, (h n y hy).2]

/-- Where the raw request in progress begins and ends. -/
lemma WriteOk.request (h : Core s) (hw : s.WriteOk w) :
    ∃ k n, s.cache.Consecutive (s.devOf w) k w.req ∧ w.req.length = n + 1 ∧ s.runOff w.req = k * block ∧
      s.runLen w.req = n * block + min (s.len (s.devOf w) - (k + n) * block) block ∧
      (k + n) * block < s.len (s.devOf w) := by
  obtain ⟨first, hcons⟩ := hw.consecutive
  obtain ⟨pre, hrun, -⟩ := hw.split
  have hreq : s.cache.Consecutive (s.devOf w) (first + pre.length) w.req := consecutive_middle (hrun ▸ hcons)
  obtain ⟨n, hn⟩ := Nat.exists_eq_succ_of_ne_zero fun h0 => hw.req (List.length_eq_zero_iff.1 h0)
  obtain ⟨hoff, hlen⟩ := request_eq hreq hn
  obtain ⟨y, hy⟩ : ∃ y, w.req[n]? = some y := ⟨_, List.getElem?_eq_getElem (by omega)⟩
  have hyk := hreq n y hy
  have hyr : y ∈ w.run := by
    rw [hrun]
    exact List.mem_append_right _ (List.mem_append_left _ (List.mem_of_getElem? hy))
  have hlast := h.range y hyk.1 (hw.dirty y hyr)
  rw [hyk.2.1, hyk.2.2] at hlast
  refine ⟨_, n, hreq, hn, hoff, ?_, hlast⟩
  rw [hlen, blockLen, if_neg (not_le.2 hlast)]

/-- A byte of the request is that of a block of the run, on the device. -/
lemma WriteOk.source_eq_some (h : Core s) (hw : s.WriteOk w) (hs : s.source w a = some v) :
    s.Current (s.devOf w) a v := by
  obtain ⟨k, n, hcons, hn, hoff, hlen, hlast⟩ := hw.request h
  unfold source at hs
  rw [hoff, hlen] at hs
  split at hs
  swap
  · cases hs
  rename_i ha
  obtain ⟨x, hx, rfl⟩ := map_eq_some_iff.1 hs
  have hxk := hcons _ x hx
  have hmod : (a - k * block) % block = a % block := by
    simp only [block] at ha ⊢
    omega
  have hblk : a / block = (s.cache.bufs x).blkno := by
    rw [hxk.2.2]
    simp only [block] at ha ⊢
    omega
  have hxr : x ∈ w.run := by
    obtain ⟨pre, hrun, -⟩ := hw.split
    rw [hrun]
    exact mem_append_right _ (mem_append_left _ (mem_of_getElem? hx))
  have hal : a < s.len (s.cache.bufs x).dev := by
    rw [hxk.2.1]
    simp only [block] at ha hlast ⊢
    omega
  have hcur := h.content x hxk.1 (h.dirtyValid x hxk.1 (hw.dirty x hxr)) a hblk hal
  rw [hxk.2.1] at hcur
  rw [hmod]
  split
  · rename_i f hf
    rw [hw.staging f hf x hxr]
    exact hcur
  · exact hcur

/-- Every byte of a block of the request that lies on the device is in it. -/
lemma WriteOk.source_covers (h : Core s) (hw : s.WriteOk w) (hx : x ∈ w.req)
    (ha : a / block = (s.cache.bufs x).blkno) (hl : a < s.len (s.devOf w)) : ∃ v, s.source w a = some v := by
  obtain ⟨k, n, hcons, hn, hoff, hlen, hlast⟩ := hw.request h
  obtain ⟨-, hk, hi⟩ := hcons.mem hx
  rw [← ha] at hk hi
  have hlt := (List.getElem?_eq_some_iff.1 hi).1
  unfold source
  rw [hoff, hlen, if_pos, show (a - k * block) / block = a / block - k by simp only [block] at hk ⊢; omega, hi]
  · exact ⟨_, rfl⟩
  simp only [block] at hk hlt ⊢
  omega

/-- The whole device has values at least as new as those when the call began. -/
def Durable (s : Store) (cl : Call) : Prop := ∀ a, a < s.len cl.dev → s.Fresh cl a (s.disk cl.dev a)

/-- The raw read of `bread` in progress. -/
structure FillOk (s : Store) (cl : Call) (run : List Nat) (taken : Nat → Option UInt8) : Prop where
  consecutive : s.cache.Consecutive cl.dev (cl.addr / block) run
  fresh : ∀ x ∈ run, (s.cache.bufs x).valid = false ∧ (s.cache.bufs x).dirty = false
  taken : ∀ x ∈ run, ∀ a v, a / block = (s.cache.bufs x).blkno → a < s.len cl.dev → taken a = some v →
    s.Current cl.dev a v

def PhaseOk (s : Store) (cl : Call) : Prop :=
  match cl.phase with
  | .loop | .flushing | .direct _ _ => True
  | .get => 0 < cl.left
  | .got b => 0 < cl.left ∧ s.cache.Holds b cl.dev (cl.addr / block)
  | .fill run taken => 0 < cl.left ∧ s.FillOk cl run taken
  | .holds b => 0 < cl.left ∧ s.cache.Holds b cl.dev (cl.addr / block) ∧
    (cl.whole (s.len cl.dev) = true ∨ (s.cache.bufs b).valid = true)
  | .write w => s.WriteOk w ∧ (w.victim = true → 0 < cl.left)
  | .rawFlush => cl.op = .flush ∧ s.Durable cl
  | .done ret => (cl.op = .flush → ret = 0 → s.Durable cl) ∧ ∀ off len, cl.op = .read off len → ret = 0 → cl.left = 0

/-- Of a call that is no flush and no read, nothing is claimed at its end. -/
lemma phaseOk_done {ret : Int} (hf : cl.op ≠ .flush) (hr : ∀ off len, cl.op ≠ .read off len) :
    s.PhaseOk { cl with phase := .done ret } :=
  ⟨fun h => absurd h hf, fun off len h => absurd h (hr off len)⟩

/-- A write lies in its device. -/
def OpOk (s : Store) (cl : Call) : Prop :=
  match cl.op with
  | .write off len _ => off + len ≤ s.len cl.dev
  | _ => True

end Store

namespace BSys

open Store

variable {s t : BSys} {p q b d k x a : Nat} {cl : Call} {w : Writeback} {v : UInt8}

structure Inv (s : BSys) : Prop where
  core : s.Core
  since : ∀ p cl a, s.call p = some cl → cl.since a < (s.hist cl.dev a).length
  op : ∀ p cl, s.call p = some cl → s.OpOk cl
  busy : ∀ p cl, s.call p = some cl → ∀ b ∈ cl.phase.owns, b < s.cache.nbufs ∧ (s.cache.bufs b).busy = true
  nodup : ∀ p cl, s.call p = some cl → cl.phase.owns.Nodup
  apart : ∀ p q cl cl', s.call p = some cl → s.call q = some cl' → p ≠ q → ∀ b ∈ cl.phase.owns, b ∉ cl'.phase.owns
  phase : ∀ p cl, s.call p = some cl → s.PhaseOk cl

/-- The buffers of process `p`. -/
def ownsOf (s : BSys) (p : Nat) : List Nat :=
  match s.call p with
  | some cl => cl.phase.owns
  | none => []

lemma ownsOf_eq (hc : s.call p = some cl) : s.ownsOf p = cl.phase.owns := by
  unfold ownsOf
  rw [hc]

/-- No two calls have a buffer in common. -/
lemma Inv.not_mem_ownsOf (hi : Inv s) (hc : s.call q = some cl) (hq : q ≠ p) (hb : b ∈ cl.phase.owns) : b ∉ s.ownsOf p := by
  unfold ownsOf
  split
  · rename_i cl' hc'
    exact hi.apart q p cl cl' hc hc' hq b hb
  · exact not_mem_nil

/-- What a step of process `p` leaves alone, of the buffers and calls of the others. -/
structure Frame (s t : BSys) (p : Nat) : Prop where
  len : t.len = s.len
  calls : ∀ q, q ≠ p → t.call q = s.call q
  nbufs : s.cache.nbufs ≤ t.cache.nbufs
  held : ∀ b, b < s.cache.nbufs → (s.cache.bufs b).busy = true → b ∉ s.ownsOf p → t.cache.bufs b = s.cache.bufs b
  hist : ∀ d a, t.hist d a = s.hist d a ∨
    (∃ v, t.hist d a = s.hist d a ++ [v]) ∧ ∃ b ∈ s.ownsOf p, s.cache.Holds b d (a / block)
  disk : ∀ d a, a < s.len d → t.disk d a = s.disk d a ∨ t.Current d a (t.disk d a)

lemma Frame.refl (s : BSys) (p : Nat) : Frame s s p :=
  ⟨rfl, fun _ _ => rfl, le_rfl, fun _ _ _ _ => rfl, fun _ _ => .inl rfl, fun _ _ _ => .inl rfl⟩

lemma Frame.grows (h : Frame s t p) (d a : Nat) : s.hist d a <+: t.hist d a := by
  rcases h.hist d a with h1 | ⟨⟨v, h1⟩, -⟩
  · exact h1 ▸ prefix_refl _
  rw [h1]
  exact prefix_append _ _

lemma Frame.durable (h : Frame s t p) (hs : ∀ a, cl.since a < (s.hist cl.dev a).length) (hd : s.Durable cl) :
    t.Durable cl := by
  intro a ha
  rw [h.len] at ha
  rcases h.disk cl.dev a ha with h1 | h1
  · rw [h1]
    exact (hd a ha).mono (h.grows _ _)
  · exact h1.fresh ((hs a).trans_le (h.grows _ _).length_le)

/-- What another call is in the middle of is not disturbed. -/
lemma Frame.phaseOk (h : Frame s t p) (hi : Inv s) (hq : q ≠ p) (hc : s.call q = some cl) : t.PhaseOk cl := by
  have hown : ∀ b ∈ cl.phase.owns, t.cache.bufs b = s.cache.bufs b ∧ b < t.cache.nbufs := by
    intro b hb
    obtain ⟨h1, h2⟩ := hi.busy q cl hc b hb
    exact ⟨h.held b h1 h2 (hi.not_mem_ownsOf hc hq hb), h1.trans_le h.nbufs⟩
  have hholds : ∀ b ∈ cl.phase.owns, ∀ d k, s.cache.Holds b d k → t.cache.Holds b d k := by
    intro b hb d k hk
    refine ⟨(hown b hb).2, ?_, ?_⟩
    · rw [(hown b hb).1]
      exact hk.2.1
    rw [(hown b hb).1]
    exact hk.2.2
  -- the history of a block with a buffer of this call does not grow
  have hhist : ∀ b ∈ cl.phase.owns, ∀ a, a / block = (s.cache.bufs b).blkno →
      t.hist (s.cache.bufs b).dev a = s.hist (s.cache.bufs b).dev a := by
    intro b hb a ha
    rcases h.hist (s.cache.bufs b).dev a with h1 | ⟨-, y, hy, hk⟩
    · exact h1
    obtain ⟨h1, -⟩ := hi.busy q cl hc b hb
    obtain rfl := hi.core.wf.unique y b _ _ hk ⟨h1, rfl, ha.symm⟩
    exact absurd hy (hi.not_mem_ownsOf hc hq hb)
  have hok := hi.phase q cl hc
  unfold PhaseOk at hok ⊢
  split at hok
  · trivial
  · trivial
  · trivial
  · exact hok
  · rename_i b hph
    exact ⟨hok.1, hholds b (by simp [hph, Phase.owns]) _ _ hok.2⟩
  · rename_i run taken hph
    have hm : ∀ x ∈ run, x ∈ cl.phase.owns := fun x hx => by rwa [hph]
    obtain ⟨h1, h2⟩ := hok
    refine ⟨h1, h2.consecutive.congr fun x hx => hholds x (hm x hx), fun x hx => ?_, fun x hx a v ha hl hv => ?_⟩
    · rw [(hown x (hm x hx)).1]
      exact h2.fresh x hx
    rw [(hown x (hm x hx)).1] at ha
    rw [h.len] at hl
    have hcur := h2.taken x hx a v ha hl hv
    have hdev := (h2.consecutive.mem hx).1.2.1
    unfold Current at hcur ⊢
    rw [← hdev] at hcur ⊢
    rw [hhist x (hm x hx) a ha]
    exact hcur
  · rename_i b hph
    obtain ⟨h1, h2, h3⟩ := hok
    have hb : b ∈ cl.phase.owns := by simp [hph, Phase.owns]
    refine ⟨h1, hholds b hb _ _ h2, ?_⟩
    rw [h.len, (hown b hb).1]
    exact h3
  · rename_i w hph
    have hm : ∀ x ∈ w.run, x ∈ cl.phase.owns := fun x hx => by rwa [hph]
    obtain ⟨hw, hv⟩ := hok
    have hdev : t.devOf w = s.devOf w := congrArg Buf.dev (hown w.b (hm _ hw.mem)).1
    obtain ⟨first, hcons⟩ := hw.consecutive
    obtain ⟨pre, hrun, hpre⟩ := hw.split
    refine ⟨⟨hw.mem, ⟨first, ?_⟩, fun x hx => ?_, ⟨pre, hrun, fun x hx a ha hl => ?_⟩, hw.req, fun f hf x hx => ?_⟩, hv⟩
    · rw [hdev]
      exact hcons.congr fun x hx => hholds x (hm x hx)
    · rw [(hown x (hm x hx)).1]
      exact hw.dirty x hx
    · have hxr : x ∈ w.run := by rw [hrun]; exact mem_append_left _ hx
      rw [(hown x (hm x hxr)).1] at ha
      rw [h.len] at hl
      rw [hdev] at hl ⊢
      rcases h.disk (s.devOf w) a hl with h1 | h1
      · have hcur := hpre x hx a ha hl
        have hxd := (hcons.mem hxr).1.2.1
        unfold Current at hcur ⊢
        rw [h1]
        rw [← hxd] at hcur ⊢
        rw [hhist x (hm x hxr) a ha]
        exact hcur
      · exact h1
    · rw [(hown x (hm x hx)).1]
      exact hw.staging f hf x hx
  · exact ⟨hok.1, h.durable (fun a => hi.since q cl a hc) hok.2⟩
  · exact ⟨fun hop hr => h.durable (fun a => hi.since q cl a hc) (hok.1 hop hr), hok.2⟩

/-- A step of process `p` keeps the invariant if it keeps the contents, leaves the others alone, takes
only buffers that nobody had, and is itself in order. -/
lemma Inv.step (hi : Inv s) (h : Frame s t p) (hcore : t.Core)
    (hp : ∀ cl, t.call p = some cl → (∀ a, cl.since a < (t.hist cl.dev a).length) ∧ t.OpOk cl ∧
      cl.phase.owns.Nodup ∧ t.PhaseOk cl ∧ ∀ b ∈ cl.phase.owns, b < t.cache.nbufs ∧ (t.cache.bufs b).busy = true ∧
        (b ∈ s.ownsOf p ∨ (b < s.cache.nbufs → (s.cache.bufs b).busy = false))) : Inv t ∧ Frame s t p := by
  have hnew : ∀ q cl cl', q ≠ p → t.call p = some cl → s.call q = some cl' →
      ∀ b ∈ cl.phase.owns, b ∉ cl'.phase.owns := by
    intro q cl cl' hq hc hc' b hb hb'
    obtain ⟨h1, h2⟩ := hi.busy q cl' hc' b hb'
    rcases ((hp cl hc).2.2.2.2 b hb).2.2 with h3 | h3
    · exact hi.not_mem_ownsOf hc' hq hb' h3
    rw [h3 h1] at h2
    cases h2
  have hcall : ∀ q cl, t.call q = some cl → (∀ a, cl.since a < (t.hist cl.dev a).length) ∧ t.OpOk cl ∧
      cl.phase.owns.Nodup ∧ t.PhaseOk cl ∧ ∀ b ∈ cl.phase.owns, b < t.cache.nbufs ∧ (t.cache.bufs b).busy = true := by
    intro q cl hc
    by_cases hq : q = p
    · obtain ⟨h1, h2, h3, h4, h5⟩ := hp cl (hq ▸ hc)
      exact ⟨h1, h2, h3, h4, fun b hb => ⟨(h5 b hb).1, (h5 b hb).2.1⟩⟩
    rw [h.calls q hq] at hc
    refine ⟨fun a => (hi.since q cl a hc).trans_le (h.grows _ _).length_le, ?_, hi.nodup q cl hc, h.phaseOk hi hq hc, ?_⟩
    · have := hi.op q cl hc
      unfold OpOk at this ⊢
      rw [h.len]
      exact this
    · intro b hb
      obtain ⟨h1, h2⟩ := hi.busy q cl hc b hb
      refine ⟨h1.trans_le h.nbufs, ?_⟩
      rw [h.held b h1 h2 (hi.not_mem_ownsOf hc hq hb)]
      exact h2
  refine ⟨⟨hcore, fun q cl a hc => (hcall q cl hc).1 a, fun q cl hc => (hcall q cl hc).2.1,
    fun q cl hc => (hcall q cl hc).2.2.2.2, fun q cl hc => (hcall q cl hc).2.2.1, fun q r cl cl' hc hc' hne b hb hb' => ?_,
    fun q cl hc => (hcall q cl hc).2.2.2.1⟩, h⟩
  by_cases hq : q = p
  · subst hq
    rw [h.calls r hne.symm] at hc'
    exact hnew r cl cl' hne.symm hc hc' b hb hb'
  rw [h.calls q hq] at hc
  by_cases hr : r = p
  · subst hr
    exact hnew q cl' cl hq hc' hc b hb' hb
  · rw [h.calls r hr] at hc'
    exact hi.apart q r cl cl' hc hc' hne b hb hb'

/-- The call of the process that moves. -/
lemma called {f : Nat → Option Call} {o : Option Call} (h : update f p o p = some cl) : o = some cl :=
  (update_self p o f).symm.trans h

/-- A step that changes the cache and the call of its process. -/
lemma Inv.move (hi : Inv s) (hc : s.call p = some cl) (c : Cache) (cl' : Call) (hdev : cl'.dev = cl.dev)
    (hsince : cl'.since = cl.since) (hop : cl'.op = cl.op) (hcore : Core { s.toStore with cache := c })
    (hn : s.cache.nbufs ≤ c.nbufs)
    (hheld : ∀ b, b < s.cache.nbufs → (s.cache.bufs b).busy = true → b ∉ cl.phase.owns → c.bufs b = s.cache.bufs b)
    (hnd : cl'.phase.owns.Nodup)
    (hown : ∀ b ∈ cl'.phase.owns, b < c.nbufs ∧ (c.bufs b).busy = true ∧
      (b ∈ cl.phase.owns ∨ (b < s.cache.nbufs → (s.cache.bufs b).busy = false)))
    (hok : PhaseOk { s.toStore with cache := c } cl') :
    Inv { s.setCall p (some cl') with cache := c } ∧ Frame s { s.setCall p (some cl') with cache := c } p := by
  have howns := ownsOf_eq hc
  refine hi.step (p := p) ⟨rfl, fun q hq => update_of_ne hq _ _, hn, ?_, fun _ _ => .inl rfl,
    fun _ _ _ => .inl rfl⟩ hcore fun cl₀ hc₀ => ?_
  · rw [howns]
    exact hheld
  cases called hc₀
  refine ⟨fun a => ?_, ?_, hnd, hok, ?_⟩
  · show cl'.since a < (s.hist cl'.dev a).length
    rw [hdev, hsince]
    exact hi.since p cl a hc
  · have := hi.op p cl hc
    unfold OpOk at this ⊢
    rw [hop, hdev]
    exact this
  · rw [howns]
    exact hown

/-- A step that changes only where its process is. -/
lemma Inv.moveTo (hi : Inv s) (hc : s.call p = some cl) (cl' : Call) (hdev : cl'.dev = cl.dev)
    (hsince : cl'.since = cl.since) (hop : cl'.op = cl.op) (hown : cl'.phase.owns = cl.phase.owns)
    (hok : s.PhaseOk cl') : Inv (s.setCall p (some cl')) ∧ Frame s (s.setCall p (some cl')) p := by
  refine hi.move hc s.cache cl' hdev hsince hop hi.core le_rfl (fun _ _ _ _ => rfl) ?_ (fun b hb => ?_) hok
  · rw [hown]
    exact hi.nodup p cl hc
  rw [hown] at hb
  obtain ⟨h1, h2⟩ := hi.busy p cl hc b hb
  exact ⟨h1, h2, .inl hb⟩

/-! ## The steps -/

/-- Writes lie in their device. -/
def inRange (s : BSys) : Label → Bool
  | .call _ d (.write off len _) _ => off + len ≤ s.len d
  | _ => true

section

variable (hi : Inv s)
include hi

variable {late pages : Bool}

lemma step_call {op : Op} (hr : s.inRange (.call p d op late) = true)
    (he : s.exec (.call p d op late) = some t) : Inv t ∧ Frame s t p := by
  rw [exec] at he
  split at he
  · cases he
  rename_i hc
  have howns : s.ownsOf p = [] := by
    unfold ownsOf
    rw [hc]
  -- all four begin with a call that holds no buffer
  have hbegin : ∀ x : Phase, x.owns = [] → s.PhaseOk ⟨d, op, 0, fun _ => 0, fun a => (s.hist d a).length - 1, x⟩ →
      Inv (s.setCall p (some ⟨d, op, 0, fun _ => 0, fun a => (s.hist d a).length - 1, x⟩)) ∧
      Frame s (s.setCall p (some ⟨d, op, 0, fun _ => 0, fun a => (s.hist d a).length - 1, x⟩)) p := by
    intro x hx hok
    refine hi.step (p := p) ⟨rfl, fun q hq => update_of_ne hq _ _, le_rfl, fun _ _ _ _ => rfl,
      fun _ _ => .inl rfl, fun _ _ _ => .inl rfl⟩ hi.core fun cl hcl => ?_
    cases called hcl
    refine ⟨fun a => ?_, ?_, ?_, hok, ?_⟩
    · have := length_pos_iff.2 (hi.core.histNe d a)
      show (s.hist d a).length - 1 < (s.hist d a).length
      omega
    · cases op with
      | write off len src => exact of_decide_eq_true (p := off + len ≤ s.len d) hr
      | read off len | flush | flusher => trivial
    · show x.owns.Nodup
      rw [hx]
      exact .nil
    · show ∀ b ∈ x.owns, _
      rw [hx]
      simp
  cases op with
  | read off len =>
    cases he
    by_cases hm : s.maybeFlush late = true
    · simp only [setPhase, hm, if_true]
      exact hbegin .flushing rfl trivial
    simp only [setPhase, hm]
    exact hbegin .loop rfl trivial
  | write off len src =>
    cases he
    exact hbegin .loop rfl trivial
  | flush =>
    cases he
    exact hbegin .flushing rfl trivial
  | flusher =>
    cases he
    by_cases hm : s.cache.ndirty ≠ 0
    · simp only [setPhase, if_pos hm]
      exact hbegin .flushing rfl trivial
    simp only [setPhase, if_neg hm]
    exact hbegin (.done 0) rfl ⟨nofun, nofun⟩

lemma step_loop (he : s.exec (.loop p late) = some t) : Inv t ∧ Frame s t p := by
  obtain ⟨cl, hc, he⟩ := bind_eq_some_iff.1 he
  have hto : ∀ x : Phase, cl.phase = .loop → x.owns = [] → s.PhaseOk { cl with phase := x } →
      Inv (s.setPhase p cl x) ∧ Frame s (s.setPhase p cl x) p := fun x hph hx hok =>
    hi.moveTo hc { cl with phase := x } rfl rfl rfl (by rw [hph]; exact hx) hok
  split at he
  · rename_i hph hop
    split at he <;> rename_i hl
    · cases he
      exact hto _ hph rfl ⟨fun hop' => absurd (hop.symm.trans hop') nofun, fun _ _ _ _ => hl⟩
    split at he
    · cases he
      exact hto _ hph rfl trivial
    cases he
    exact hto _ hph rfl (pos_of_ne_zero hl)
  · rename_i hph hop
    split at he
    · cases he
      split
      · exact hto _ hph rfl trivial
      · exact hto _ hph rfl (phaseOk_done (by rw [hop]; nofun) (by rw [hop]; nofun))
    · rename_i hl
      cases he
      exact hto _ hph rfl (pos_of_ne_zero hl)
  · cases he

/-- `writeback_cluster` begins with a dirty buffer that was idle. -/
lemma Inv.writeback (hc : s.call p = some cl) (hb : b < s.cache.nbufs)
    (hidle : (s.cache.bufs b).busy = false) (hdirty : (s.cache.bufs b).dirty = true) (pages victim : Bool)
    (hv : victim = true → 0 < cl.left) :
    Inv ({ s with cache := s.cache.bufClaim b }.writeback p cl b pages victim) ∧
    Frame s ({ s with cache := s.cache.bufClaim b }.writeback p cl b pages victim) p := by
  set c₁ := s.cache.bufClaim b with hc₁
  have hsame₁ : SameData s.cache c₁ := hc₁ ▸ bufClaim_sameData _ _
  have hw₁ : c₁.Wf := hc₁ ▸ hi.core.wf.bufClaim b
  obtain ⟨first, hcl, hmem⟩ := hw₁.cluster (hsame₁.nbufs ▸ hb : b < c₁.nbufs)
  have hsame := hsame₁.trans hcl.same
  set run := (c₁.cluster b).1 with hrun
  set c := (c₁.cluster b).2 with hcc
  have hcons : c.Consecutive (c.bufs b).dev first run := by
    rw [hcl.same.dev]
    exact hcl.consecutive.congr fun x _ _ _ hx => hcl.same.holds.2 hx
  have hidle₁ : ∀ x ∈ run, (s.cache.bufs x).busy = false := fun x hx => by
    by_cases hxb : x = b
    · rw [hxb]
      exact hidle
    have := (hcl.members x hx hxb).1
    rw [hc₁, bufClaim_busy, if_neg hxb] at this
    exact this
  have hdirty₁ : ∀ x ∈ run, (c.bufs x).dirty = true := fun x hx => by
    rw [hcl.same.dirty]
    by_cases hxb : x = b
    · rw [hxb, hsame₁.dirty]
      exact hdirty
    · exact (hcl.members x hx hxb).2
  have hbusy : ∀ x ∈ run, (c.bufs x).busy = true := fun x hx => by
    rw [hcl.busy]
    by_cases hxb : x = b
    · rw [if_neg (by simp [hxb]), hxb, hc₁, bufClaim_busy, if_pos rfl]
    · rw [if_pos ⟨hx, hxb⟩]
  -- whatever the requests are, they cover the run
  have hwrite : ∀ w : Writeback, w.b = b → w.run = run → w.victim = victim → w.run = w.req ++ w.rest → w.req ≠ [] →
      (∀ f, w.staging = some f → f = fun x => (c.bufs x).data) →
      Inv { s.setPhase p cl (.write w) with cache := c } ∧
      Frame s { s.setPhase p cl (.write w) with cache := c } p := by
    intro w hwb hwr hwv hsplit hreq hstage
    refine hi.move hc c { cl with phase := .write w } rfl rfl rfl (hi.core.sameData hsame hcl.wf)
      (le_of_eq hsame.nbufs.symm) (fun x hx hxb _ => ?_) ?_ (fun x hx => ?_) ⟨?_, fun h => hv (hwv ▸ h)⟩
    · have hxr : x ∉ run := fun hm => by
        rw [hidle₁ x hm] at hxb
        cases hxb
      have hne : x ≠ b := fun he => hxr (he ▸ hmem)
      obtain ⟨v, hv⟩ := hcl.same.bufs x
      have hv' : v = (c₁.bufs x).busy := by
        have := hcl.busy x
        rw [hv, if_neg (by simp [hxr])] at this
        exact this
      rw [hv, hv', hc₁]
      exact setBuf_ne _ hne
    · show w.run.Nodup
      rw [hwr]
      exact hcons.nodup
    · have hx : x ∈ run := hwr ▸ hx
      exact ⟨(hcons.mem hx).1.1, hbusy x hx, .inr fun _ => hidle₁ x hx⟩
    · have hdev : devOf { s.toStore with cache := c } w = (c.bufs b).dev := by
        unfold devOf
        rw [hwb]
      exact {
        mem := by rw [hwb, hwr]; exact hmem
        consecutive := ⟨first, by rw [hdev, hwr]; exact hcons⟩
        dirty := fun x hx => hdirty₁ x (hwr ▸ hx)
        split := ⟨[], hsplit, by simp⟩
        req := hreq
        staging := fun f hf x _ => by rw [hstage f hf] }
  have hne : run ≠ [] := ne_nil_of_mem hmem
  unfold BSys.writeback
  simp only [← hrun]
  split
  · exact hwrite _ rfl rfl rfl (by simp) hne (by simp)
  split
  · refine hwrite _ rfl rfl rfl (by simp) hne fun f hf => ?_
    simpa using hf.symm
  refine hwrite _ rfl rfl rfl (take_append_drop 1 run).symm ?_ (by simp)
  simpa using hne

lemma step_scan (he : s.exec (.scan p pages) = some t) : Inv t ∧ Frame s t p := by
  obtain ⟨cl, hc, he⟩ := bind_eq_some_iff.1 he
  split at he
  swap
  · cases he
  rename_i hph
  obtain ⟨hsome, hnone⟩ := hi.core.wf.scan cl.flushes
  split at he
  · rename_i b r hsc
    cases he
    obtain ⟨hb, hw, hidle⟩ := hsome b r hsc
    exact hi.writeback hc hb hidle (wanted_iff.1 hw).1 pages false (by simp)
  · cases he
    exact ⟨hi, .refl s p⟩
  rename_i hsc
  cases he
  refine hi.moveTo hc { cl with phase := cl.afterFlush 0 } rfl rfl rfl ?_ ?_
  · rw [hph]
    show (cl.afterFlush 0).owns = []
    unfold Call.afterFlush
    split <;> rfl
  unfold Call.afterFlush
  split
  · trivial
  · rename_i hop
    exact phaseOk_done (by rw [hop]; nofun) (by rw [hop]; nofun)
  · rename_i hop
    exact phaseOk_done (by rw [hop]; nofun) (by rw [hop]; nofun)
  rename_i hop
  -- no dirty buffer of the device is left
  refine ⟨hop, fun a ha => Current.fresh (hi.core.disk cl.dev a ha fun b hb => ?_) (hi.since p cl a hc)⟩
  have hw := hnone hsc b hb.1
  rw [← Bool.not_eq_true, wanted_iff, not_and] at hw
  rw [← Bool.not_eq_true]
  intro hd
  refine hw hd fun d' hd' => ?_
  unfold Call.flushes at hd'
  rw [hop] at hd'
  cases hd'
  exact hb.2.1

lemma step_get {mem : Bool} (he : s.exec (.get p mem pages) = some t) : Inv t ∧ Frame s t p := by
  obtain ⟨cl, hc, he⟩ := bind_eq_some_iff.1 he
  split at he
  swap
  · cases he
  rename_i hph
  have hleft : 0 < cl.left := by
    have := hi.phase p cl hc
    rwa [PhaseOk, hph] at this
  rcases hi.core.wf.getblk mem cl.dev (cl.addr / block) with hg | ⟨b, hg, hb, hidle⟩ |
      ⟨b, c, hg, hw, ht, hb⟩ | ⟨v, hg, hv, hidle, hdirty⟩
  · rw [hg] at he
    cases he
    exact ⟨hi, .refl s p⟩
  · rw [hg] at he
    cases he
    have hsame := bufClaim_sameData s.cache b
    refine hi.move hc _ { cl with phase := .got b } rfl rfl rfl (hi.core.sameData hsame (hi.core.wf.bufClaim b))
      le_rfl (fun x _ hx _ => setBuf_ne _ ?_) (nodup_singleton b) (fun x hx => ?_)
      ⟨hleft, hsame.holds.2 hb⟩
    · rintro rfl
      rw [hidle] at hx
      cases hx
    · rw [mem_singleton.1 hx]
      exact ⟨hb.1, by rw [bufClaim_busy, if_pos rfl], .inr fun _ => hidle⟩
  · rw [hg] at he
    cases he
    refine hi.move hc c { cl with phase := .got b } rfl rfl rfl (hi.core.takes ht hw) ?_ (fun x hx hxb _ => ?_)
      (nodup_singleton b) (fun x hx => ?_) ⟨hleft, hb⟩
    · exact Nat.le_of_not_lt fun hlt => absurd ((ht.nbufs c.nbufs).2 (.inl hlt)) (lt_irrefl _)
    · refine ht.others x fun hm => ?_
      rw [(ht.idle x hm hx).1] at hxb
      cases hxb
    · refine ⟨(ht.nbufs x).2 (.inr hx), (ht.fresh x hx).2.2, .inr fun hn => (ht.idle x hx hn).1⟩
  · rw [hg] at he
    cases he
    exact hi.writeback hc hv hidle hdirty pages true fun _ => hleft

lemma step_bread {mem : Nat → Bool} (he : s.exec (.bread p mem) = some t) : Inv t ∧ Frame s t p := by
  obtain ⟨cl, hc, he⟩ := bind_eq_some_iff.1 he
  split at he
  swap
  · cases he
  rename_i b hph
  obtain ⟨hleft, hb⟩ : 0 < cl.left ∧ s.cache.Holds b cl.dev (cl.addr / block) := by
    have := hi.phase p cl hc
    rwa [PhaseOk, hph] at this
  obtain ⟨-, hbusy⟩ := hi.busy p cl hc b (by simp [hph, Phase.owns])
  split at he <;> rename_i hv
  · cases he
    refine hi.moveTo hc { cl with phase := .holds b } rfl rfl rfl (by rw [hph]; rfl) ⟨hleft, hb, ?_⟩
    show cl.whole (s.len cl.dev) = true ∨ _
    simpa using hv
  simp only [Bool.or_eq_true, not_or, Bool.not_eq_true] at hv
  cases he
  set fuel := (if cl.addr / block = s.nextSeq cl.dev then raMax else 1) - 1 with hfuel
  obtain ⟨hw, ht, hcons⟩ := hi.core.wf.readAhead mem (s.len cl.dev) cl.dev (cl.addr / block) fuel 1
  set r := readAhead mem (s.len cl.dev) cl.dev (cl.addr / block) fuel 1 s.cache with hr
  have hbr : b ∉ r.1 := fun hm => by
    rw [(ht.idle b hm hb.1).1] at hbusy
    cases hbusy
  have hbb : r.2.bufs b = s.cache.bufs b := ht.others b hbr
  have hb' : r.2.Holds b cl.dev (cl.addr / block) :=
    ⟨(ht.nbufs b).2 (.inl hb.1), (congrArg Buf.dev hbb).trans hb.2.1, (congrArg Buf.blkno hbb).trans hb.2.2⟩
  have hrun : r.2.Consecutive cl.dev (cl.addr / block) (b :: r.1) := consecutive_cons hb' hcons
  refine hi.move hc r.2 { cl with phase := .fill (b :: r.1) fun _ => none } rfl rfl rfl (hi.core.takes ht hw)
    ?_ (fun x hx hxb _ => ht.others x fun hm => ?_) hrun.nodup (fun x hx => ?_) ⟨hleft, hrun, fun x hx => ?_, ?_⟩
  · exact Nat.le_of_not_lt fun hlt => absurd ((ht.nbufs r.2.nbufs).2 (.inl hlt)) (lt_irrefl _)
  · rw [(ht.idle x hm hx).1] at hxb
    cases hxb
  · rcases mem_cons.1 hx with rfl | hx
    · exact ⟨hb'.1, by rw [hbb]; exact hbusy, .inl (by simp [hph, Phase.owns])⟩
    · exact ⟨(ht.nbufs x).2 (.inr hx), (ht.fresh x hx).2.2, .inr fun hn => (ht.idle x hx hn).1⟩
  · rcases mem_cons.1 hx with rfl | hx
    · show (r.2.bufs x).valid = false ∧ (r.2.bufs x).dirty = false
      rw [hbb]
      refine ⟨hv.2, ?_⟩
      rw [← Bool.not_eq_true]
      intro hd
      rw [hi.core.dirtyValid x hb.1 hd] at hv
      cases hv.2
    · exact ⟨(ht.fresh x hx).1, (ht.fresh x hx).2.1⟩
  · simp

lemma step_take (he : s.exec (.take p a) = some t) : Inv t ∧ Frame s t p := by
  obtain ⟨cl, hc, he⟩ := bind_eq_some_iff.1 he
  have hok := hi.phase p cl hc
  split at he
  · rename_i run taken hph
    rw [PhaseOk, hph] at hok
    obtain ⟨hleft, hf⟩ := hok
    cases he
    refine hi.moveTo hc { cl with phase := .fill run (update taken a (some (s.disk cl.dev a))) } rfl rfl rfl
      (by rw [hph]; rfl) ⟨hleft, hf.consecutive, hf.fresh, fun x hx a' v ha hl hv => ?_⟩
    by_cases haa : a' = a
    · -- the only buffer of the block is clean, so the device has its last value
      subst haa
      rw [update_self] at hv
      cases hv
      refine hi.core.disk cl.dev a' hl fun y hy => ?_
      have hxk := (hf.consecutive.mem hx).1
      rw [hi.core.wf.unique y x _ _ hy (ha ▸ hxk)]
      exact (hf.fresh x hx).2
    · rw [update_of_ne haa] at hv
      exact hf.taken x hx a' v ha hl hv
  · rename_i span taken hph
    cases he
    exact hi.moveTo hc { cl with phase := .direct span _ } rfl rfl rfl (by rw [hph]; rfl) trivial
  · cases he

end

/-- The buffers of a run, once they are filled. -/
lemma foldl_fillBuf (s : BSys) (d : Nat) (taken : Nat → Option UInt8) (hw : c.Wf) (hx : ∀ x ∈ xs, x < c.nbufs)
    (hn : xs.Nodup) :
    (xs.foldl (s.fillBuf d taken) c).Wf ∧ (xs.foldl (s.fillBuf d taken) c).nbufs = c.nbufs ∧
    ∀ y, (xs.foldl (s.fillBuf d taken) c).bufs y = if y ∈ xs then s.filledBuf d taken (c.bufs y) else c.bufs y := by
  induction xs generalizing c with
  | nil => exact ⟨hw, rfl, fun y => by simp⟩
  | cons x xs ih =>
    obtain ⟨hx0, hxs⟩ := forall_mem_cons.1 hx
    obtain ⟨hnx, hn⟩ := nodup_cons.1 hn
    have hw' : (s.fillBuf d taken c x).Wf := hw.setBuf hx0 (s.filledBuf d taken (c.bufs x)) rfl rfl rfl rfl
    obtain ⟨h1, h2, h3⟩ := ih hw' hxs hn
    refine ⟨h1, h2, fun y => ?_⟩
    rw [foldl_cons, h3 y]
    by_cases hyx : y = x
    · subst hyx
      simp [hnx, fillBuf]
    rw [show (s.fillBuf d taken c x).bufs y = c.bufs y from setBuf_ne _ hyx]
    simp [hyx]

/-- `next_seq` says only what to read ahead. -/
lemma kept_nextSeq (h : Inv t ∧ Frame s t p) (f : Nat → Nat) :
    Inv { t with nextSeq := f } ∧ Frame s { t with nextSeq := f } p := by
  obtain ⟨hi, hf⟩ := h
  exact ⟨⟨hi.core, hi.since, hi.op, hi.busy, hi.nodup, hi.apart, hi.phase⟩,
    ⟨hf.len, hf.calls, hf.nbufs, hf.held, hf.hist, hf.disk⟩⟩

variable {ok : Bool}

lemma step_filled (hi : Inv s) (he : s.exec (.filled p ok) = some t) : Inv t ∧ Frame s t p := by
  obtain ⟨cl, hc, he⟩ := bind_eq_some_iff.1 he
  split at he
  swap
  · cases he
  rename_i b run taken hph
  cases he
  have hok := hi.phase p cl hc
  rw [PhaseOk, hph] at hok
  obtain ⟨hleft, hf⟩ := hok
  have howns : cl.phase.owns = b :: run := by rw [hph]; rfl
  have hbusy := hi.busy p cl hc
  have hnd := hi.nodup p cl hc
  rw [howns] at hbusy hnd
  obtain ⟨hnb, hnr⟩ := nodup_cons.1 hnd
  set c₁ := if ok then (b :: run).foldl (s.fillBuf cl.dev taken) s.cache else s.cache with hc₁
  -- either nothing is changed, or every buffer of the run gets its contents
  have hfill : c₁.Wf ∧ c₁.nbufs = s.cache.nbufs ∧ (∀ y, y ∉ b :: run → c₁.bufs y = s.cache.bufs y) ∧
      (∀ y, (c₁.bufs y).busy = (s.cache.bufs y).busy) ∧ Core { s.toStore with cache := c₁ } ∧
      (ok = true → (c₁.bufs b).valid = true) ∧
      (c₁.bufs b).dev = (s.cache.bufs b).dev ∧ (c₁.bufs b).blkno = (s.cache.bufs b).blkno := by
    cases ok with
    | false =>
      rw [hc₁]
      exact ⟨hi.core.wf, rfl, fun _ _ => rfl, fun _ => rfl, hi.core, nofun, rfl, rfl⟩
    | true =>
      obtain ⟨h1, h2, h3⟩ := foldl_fillBuf s cl.dev taken hi.core.wf (fun x hx => (hbusy x hx).1) hnd
      have hc₁ : c₁ = (b :: run).foldl (s.fillBuf cl.dev taken) s.cache := hc₁
      rw [← hc₁] at h1 h2 h3
      have hnew : ∀ x ∈ b :: run, c₁.bufs x = s.filledBuf cl.dev taken (s.cache.bufs x) := fun x hx => by
        rw [h3 x, if_pos hx]
      have hold : ∀ y, y ∉ b :: run → c₁.bufs y = s.cache.bufs y := fun y hy => by rw [h3 y, if_neg hy]
      refine ⟨h1, h2, hold, fun y => ?_, ?_, fun _ => ?_, ?_, ?_⟩
      · by_cases hy : y ∈ b :: run
        · rw [hnew y hy]
          rfl
        · rw [hold y hy]
      · refine hi.core.fill h1 h2 hold (fun x hx => ?_) fun x hx a ha hl => ?_
        · rw [hnew x hx]
          exact ⟨(hf.fresh x hx).2, (hf.fresh x hx).2⟩
        have hxk := (hf.consecutive.mem hx).1
        rw [hnew x hx] at ha hl ⊢
        simp only [filledBuf] at ha hl ⊢
        rw [hxk.2.1] at hl ⊢
        have hj : (s.cache.bufs x).blkno * block + a % block = a := by
          rw [← ha]
          exact Nat.div_add_mod' a block
        have hlt : a % block < blockLen (s.len cl.dev) (s.cache.bufs x).blkno := by
          unfold blockLen
          simp only [block] at hj ⊢
          split <;> omega
        rw [if_pos hlt, hj]
        cases htk : taken a with
        | some v => exact hf.taken x hx a v ha hl htk
        | none =>
          refine hi.core.disk cl.dev a hl fun y hy => ?_
          rw [hi.core.wf.unique y x _ _ hy (ha ▸ hxk)]
          exact (hf.fresh x hx).2
      · rw [hnew b (mem_cons_self ..)]
        rfl
      · rw [hnew b (mem_cons_self ..)]
        rfl
      · rw [hnew b (mem_cons_self ..)]
        rfl
  obtain ⟨hw₁, hn₁, hold₁, hbusy₁, hcore₁, hval₁, hdev₁, hblk₁⟩ := hfill
  obtain ⟨hw₂, hsame₂, hbufs₂⟩ := hw₁.releaseAll hnr fun x hx => by
    rw [hn₁, hbusy₁]
    exact hbusy x (mem_cons_of_mem _ hx)
  set c₂ := run.foldl (fun c x => c.bufRelease x) c₁ with hc₂
  have hb₂ : c₂.bufs b = c₁.bufs b := by rw [hbufs₂, if_neg hnb]
  have hbusyb : (c₂.bufs b).busy = true := by
    rw [hb₂, hbusy₁]
    exact (hbusy b (mem_cons_self ..)).2
  have hltb : b < c₂.nbufs := by
    rw [hsame₂.nbufs, hn₁]
    exact (hbusy b (mem_cons_self ..)).1
  have hheld₂ : ∀ y, y ∉ b :: run → c₂.bufs y = s.cache.bufs y := fun y hy => by
    rw [hbufs₂, if_neg fun hm => hy (mem_cons_of_mem _ hm), hold₁ y hy]
  have hcore₂ : Core { s.toStore with cache := c₂ } := hcore₁.sameData hsame₂ hw₂
  simp only [BSys.filled]
  rw [← hc₁]
  split
  · rename_i hokt
    refine kept_nextSeq (hi.move hc c₂ { cl with phase := .holds b } rfl rfl rfl hcore₂ ?_ ?_ (nodup_singleton b)
      (fun x hx => ?_) ⟨hleft, ⟨hltb, ?_, ?_⟩, .inr ?_⟩) _
    · exact le_of_eq (hsame₂.nbufs.trans hn₁).symm
    · rw [howns]
      exact fun y _ _ hy => hheld₂ y hy
    · rw [mem_singleton.1 hx, howns]
      exact ⟨hltb, hbusyb, .inl (mem_cons_self ..)⟩
    · rw [hb₂, hdev₁]
      exact (hf.consecutive 0 b rfl).2.1
    · rw [hb₂, hblk₁]
      exact (hf.consecutive 0 b rfl).2.2
    · rw [hb₂]
      exact hval₁ hokt
  · refine kept_nextSeq (hi.move hc (c₂.bufRelease b) { cl with phase := .done (-5) } rfl rfl rfl
      (hcore₂.sameData (bufRelease_sameData c₂ b) (hw₂.bufRelease hltb hbusyb)) ?_ ?_ .nil nofun ⟨nofun, nofun⟩) _
    · exact le_of_eq (hsame₂.nbufs.trans hn₁).symm
    rw [howns]
    intro y _ _ hy
    have hyb : y ≠ b := fun he => hy (he ▸ mem_cons_self ..)
    rw [bufRelease_bufs, if_neg hyb]
    exact hheld₂ y hy

/-- A call that holds a buffer. -/
lemma Inv.holding (hi : Inv s) (hc : s.call p = some cl) (hph : cl.phase = .holds b) :
    0 < cl.left ∧ s.cache.Holds b cl.dev (cl.addr / block) ∧
    (cl.whole (s.len cl.dev) = true ∨ (s.cache.bufs b).valid = true) ∧ (s.cache.bufs b).busy = true := by
  have hok := hi.phase p cl hc
  rw [PhaseOk, hph] at hok
  exact ⟨hok.1, hok.2.1, hok.2.2, (hi.busy p cl hc b (by simp [hph, Phase.owns])).2⟩

lemma Inv.copyOut (hi : Inv s) (hc : s.call p = some cl) (hph : cl.phase = .holds b) :
    Inv (s.copyOut p cl b) ∧ Frame s (s.copyOut p cl b) p := by
  obtain ⟨-, hb, -, hbusy⟩ := hi.holding hc hph
  refine hi.move hc (s.cache.bufRelease b) _ rfl rfl rfl
    (hi.core.sameData (bufRelease_sameData _ b) (hi.core.wf.bufRelease hb.1 hbusy)) le_rfl
    (fun y _ _ hy => ?_) .nil nofun trivial
  rw [bufRelease_bufs, if_neg]
  rintro rfl
  exact hy (by simp [hph, Phase.owns])

lemma Inv.copyIn {off len : Nat} {src : Nat → UInt8} (hi : Inv s) (hc : s.call p = some cl)
    (hop : cl.op = .write off len src) (hph : cl.phase = .holds b) :
    Inv (s.copyIn p cl off src b) ∧ Frame s (s.copyIn p cl off src b) p := by
  obtain ⟨hleft, hb, hval, hbusy⟩ := hi.holding hc hph
  have haddr : cl.addr = off + cl.pos := by
    unfold Call.addr
    rw [hop]
  have hend : cl.addr + cl.chunk ≤ s.len cl.dev := by
    have hr := hi.op p cl hc
    rw [OpOk, hop] at hr
    have : cl.chunk ≤ cl.left := min_le_right _ _
    have hl : cl.left = len - cl.pos := by
      unfold Call.left
      rw [hop]
    omega
  have hchunk : cl.chunk ≤ block - cl.addr % block := min_le_left _ _
  have hpos : 0 < cl.chunk := by
    unfold Call.chunk
    have : cl.addr % block < block := Nat.mod_lt _ (by decide)
    omega
  -- the bytes written are those of the block from the current address on
  have hin : ∀ a, a / block = cl.addr / block →
      (cl.addr ≤ a ∧ a < cl.addr + cl.chunk ↔ cl.addr % block ≤ a % block ∧ a % block < cl.addr % block + cl.chunk) ∧
      (cl.addr ≤ a → a - off = cl.pos + (a % block - cl.addr % block)) := by
    intro a ha
    have h1 := Nat.div_add_mod' a block
    have h2 := Nat.div_add_mod' cl.addr block
    rw [ha] at h1
    constructor <;> omega
  have hblk : ∀ a, cl.addr ≤ a → a < cl.addr + cl.chunk → a / block = cl.addr / block := by
    intro a h1 h2
    simp only [block] at hchunk ⊢
    omega
  set y : Buf := { s.cache.bufs b with
      valid := true
      dirty := true
      data := fun j => if cl.addr % block ≤ j ∧ j < cl.addr % block + cl.chunk then
        src (cl.pos + (j - cl.addr % block)) else (s.cache.bufs b).data j } with hy
  set c₁ : Cache := { s.cache.setBuf b y with
      ndirty := if (s.cache.bufs b).dirty then s.cache.ndirty else s.cache.ndirty + 1 } with hc₁
  set f : Nat → Nat → List UInt8 := update s.hist cl.dev fun a =>
      if cl.addr ≤ a ∧ a < cl.addr + cl.chunk then s.hist cl.dev a ++ [src (a - off)] else s.hist cl.dev a with hf
  have hw₁ : c₁.Wf := by
    rw [hc₁]
    refine hi.core.wf.setBuf hb.1 y (by rw [hy]) (by rw [hy]) (by rw [hy]) ?_
    rw [hy]
    split <;> simp
  have hself : c₁.bufs b = y := by
    rw [hc₁]
    exact setBuf_same _
  have hne : ∀ x, x ≠ b → c₁.bufs x = s.cache.bufs x := fun x hx => by
    rw [hc₁]
    exact setBuf_ne _ hx
  have hbusy₁ : (c₁.bufs b).busy = true := by rw [hself, hy]; exact hbusy
  have hn₁ : c₁.nbufs = s.cache.nbufs := by rw [hc₁]; rfl
  have hf_dev : ∀ a, f cl.dev a =
      if cl.addr ≤ a ∧ a < cl.addr + cl.chunk then s.hist cl.dev a ++ [src (a - off)] else s.hist cl.dev a := fun a => by
    rw [hf, update_self]
  have hf_ne : ∀ d a, d ≠ cl.dev → f d a = s.hist d a := fun d a hd => by rw [hf, update_of_ne hd]
  have hf_cases : ∀ d a, f d a = s.hist d a ∨ (∃ v, f d a = s.hist d a ++ [v]) ∧ s.cache.Holds b d (a / block) := by
    intro d a
    by_cases hd : d = cl.dev
    · subst hd
      rw [hf_dev]
      split
      · rename_i ha
        exact .inr ⟨⟨_, rfl⟩, hblk a ha.1 ha.2 ▸ hb⟩
      · exact .inl rfl
    · exact .inl (hf_ne d a hd)
  have hcore : Core { s.toStore with cache := c₁, hist := f } := by
    refine hi.core.store hw₁ hn₁ hb.1 hne (by rw [hself, hy]) (by rw [hself, hy]) (by rw [hself, hy])
      (by rw [hself, hy]) ?_ (fun d a => ?_) (fun d a hnot => ?_) fun a ha hl => ?_
    · rw [hb.2.1, hb.2.2]
      have := Nat.div_mul_le_self cl.addr block
      omega
    · rcases hf_cases d a with h1 | ⟨⟨v, h1⟩, -⟩ <;> rw [h1]
      · exact hi.core.histNe d a
      simp
    · exact (hf_cases d a).resolve_right fun h => hnot h.2
    · rw [hb.2.2] at ha
      rw [hb.2.1] at hl ⊢
      rw [hf_dev, hself, hy]
      obtain ⟨h1, h2⟩ := hin a ha
      show _ = some (if _ then _ else _)
      by_cases hia : cl.addr ≤ a ∧ a < cl.addr + cl.chunk
      · rw [if_pos hia, if_pos (h1.1 hia), List.getLast?_append, h2 hia.1]
        rfl
      rw [if_neg hia, if_neg fun hj => hia (h1.2 hj)]
      -- a byte of the block that is kept: the buffer was valid
      have hv : (s.cache.bufs b).valid = true := by
        rcases hval with hwh | hv
        · exfalso
          unfold Call.whole at hwh
          rw [hop] at hwh
          simp only [Bool.and_eq_true, beq_iff_eq, decide_eq_true_eq] at hwh
          obtain ⟨hz, hle⟩ := hwh
          refine hia (h1.2 ⟨by omega, ?_⟩)
          have h3 := Nat.div_add_mod' a block
          rw [ha] at h3
          have hm : a % block < block := Nat.mod_lt _ (by decide)
          unfold blockLen at hle
          split at hle <;> omega
        · exact hv
      have := hi.core.content b hb.1 hv a (ha.trans hb.2.2.symm) (hb.2.1.symm ▸ hl)
      rw [hb.2.1] at this
      exact this
  have hcore₂ : Core { s.toStore with cache := c₁.bufRelease b, hist := f } :=
    hcore.sameData (bufRelease_sameData c₁ b) (hw₁.bufRelease (hn₁ ▸ hb.1) hbusy₁)
  have howns : s.ownsOf p = [b] := by
    rw [ownsOf_eq hc, hph]
    rfl
  have ht : s.copyIn p cl off src b = { s.setCall p (some { cl with pos := cl.pos + cl.chunk, phase := .loop }) with
      cache := c₁.bufRelease b, hist := f } := by
    rw [hc₁, hy, hf]
    rfl
  rw [ht]
  refine hi.step (p := p) ⟨rfl, fun q hq => update_of_ne hq _ _, le_of_eq hn₁.symm, fun x _ _ hx => ?_,
    fun d a => ?_, fun _ _ _ => .inl rfl⟩ hcore₂ fun cl' hcl' => ?_
  · rw [howns, mem_singleton] at hx
    show (c₁.bufRelease b).bufs x = _
    rw [bufRelease_bufs, if_neg hx, hne x hx]
  · rw [howns]
    exact (hf_cases d a).imp_right fun h => ⟨h.1, b, mem_singleton.2 rfl, h.2⟩
  cases called hcl'
  refine ⟨fun a => ?_, hi.op p cl hc, .nil, trivial, nofun⟩
  show cl.since a < (f cl.dev a).length
  have := hi.since p cl a hc
  rcases hf_cases cl.dev a with h1 | ⟨⟨v, h1⟩, -⟩
  · rw [h1]
    exact this
  rw [h1, length_append]
  omega

lemma step_copy (hi : Inv s) (he : s.exec (.copy p) = some t) : Inv t ∧ Frame s t p := by
  obtain ⟨cl, hc, he⟩ := bind_eq_some_iff.1 he
  split at he
  · rename_i hph hop
    cases he
    exact hi.copyOut hc hph
  · rename_i hph hop
    cases he
    exact hi.copyIn hc hop hph
  · cases he

/-- Bytes of the request in progress have reached the device. -/
lemma Inv.land (hi : Inv s) (hc : s.call p = some cl) (hph : cl.phase = .write w)
    (hf : ∀ d a, f d a = s.disk d a ∨ d = s.devOf w ∧ s.source w a = some (f d a)) (w' : Writeback)
    (hrun : w'.run = w.run) (hok : WriteOk { s.toStore with disk := f } w') (hv : w'.victim = w.victim) :
    Inv { s.setPhase p cl (.write w') with disk := f } ∧
    Frame s { s.setPhase p cl (.write w') with disk := f } p := by
  have hp := hi.phase p cl hc
  rw [PhaseOk, hph] at hp
  have hcur : ∀ d a, a < s.len d → f d a = s.disk d a ∨ s.Current d a (f d a) := by
    intro d a _
    rcases hf d a with h1 | ⟨rfl, h1⟩
    · exact .inl h1
    · exact .inr (hp.1.source_eq_some hi.core h1)
  refine hi.step ⟨rfl, fun q hq => update_of_ne hq _ _, le_rfl, fun _ _ _ _ => rfl,
    fun _ _ => .inl rfl, hcur⟩ (hi.core.land hcur) fun cl' hcl' => ?_
  cases called hcl'
  refine ⟨fun a => hi.since p cl a hc, hi.op p cl hc, ?_, ⟨hok, fun h => hp.2 (hv ▸ h)⟩, fun b hb => ?_⟩
  · have := hi.nodup p cl hc
    rw [hph] at this
    show w'.run.Nodup
    rw [hrun]
    exact this
  · have hb : b ∈ w.run := hrun ▸ hb
    have hb' : b ∈ cl.phase.owns := by rw [hph]; exact hb
    obtain ⟨h1, h2⟩ := hi.busy p cl hc b hb'
    exact ⟨h1, h2, .inl (by rw [ownsOf_eq hc]; exact hb')⟩

/-- What has been written stays written. -/
lemma writeOk_land {s : Store} (h : Core s) (hw : s.WriteOk w)
    (hf : ∀ d a, f d a = s.disk d a ∨ d = s.devOf w ∧ s.source w a = some (f d a)) :
    WriteOk { s with disk := f } w := by
  obtain ⟨pre, hrun, hpre⟩ := hw.split
  refine ⟨hw.mem, hw.consecutive, hw.dirty, ⟨pre, hrun, fun x hx a ha hl => ?_⟩, hw.req, hw.staging⟩
  show s.Current (s.devOf w) a (f (s.devOf w) a)
  rcases hf (s.devOf w) a with h1 | ⟨-, h1⟩
  · rw [h1]
    exact hpre x hx a ha hl
  · exact hw.source_eq_some h h1

lemma step_land (hi : Inv s) (he : s.exec (.land p a) = some t) : Inv t ∧ Frame s t p := by
  obtain ⟨cl, hc, he⟩ := bind_eq_some_iff.1 he
  split at he
  swap
  · cases he
  rename_i w hph
  obtain ⟨v, hv, he⟩ := bind_eq_some_iff.1 he
  cases he
  have hp := hi.phase p cl hc
  rw [PhaseOk, hph] at hp
  have hf : ∀ d a', update s.disk (s.devOf w) (update (s.disk (s.devOf w)) a v) d a' = s.disk d a' ∨
      d = s.devOf w ∧ s.source w a' = some (update s.disk (s.devOf w) (update (s.disk (s.devOf w)) a v) d a') := by
    intro d a'
    by_cases hd : d = s.devOf w
    · subst hd
      rw [update_self]
      by_cases ha : a' = a
      · subst ha
        rw [update_self]
        exact .inr ⟨rfl, hv⟩
      · rw [update_of_ne ha]
        exact .inl rfl
    · rw [update_of_ne hd]
      exact .inl rfl
  have := hi.land hc hph hf w rfl (writeOk_land hi.core hp.1 hf) rfl
  have hsame : s.setPhase p cl (.write w) = s := by
    unfold setPhase setCall
    rw [← hph, update_eq_self_iff.2 hc.symm]
  rw [hsame] at this
  exact this

/-- The buffers of a run after they are marked clean, if they are, and released. -/
lemma releaseRun (hw : c.Wf) (hmem : w.b ∈ w.run) (hnd : w.run.Nodup)
    (hbusy : ∀ x ∈ w.run, x < c.nbufs ∧ (c.bufs x).busy = true) :
    (((w.run.filter (· ≠ w.b)).foldl (fun c x => c.bufRelease x) c).bufRelease w.b).Wf ∧
    SameData c (((w.run.filter (· ≠ w.b)).foldl (fun c x => c.bufRelease x) c).bufRelease w.b) ∧
    ∀ y, y ∉ w.run →
      (((w.run.filter (· ≠ w.b)).foldl (fun c x => c.bufRelease x) c).bufRelease w.b).bufs y = c.bufs y := by
  obtain ⟨h1, h2, h3⟩ := hw.releaseAll (hnd.filter _) fun x hx => hbusy x (mem_filter.1 hx).1
  have hb := hbusy w.b hmem
  have hbb : ((w.run.filter (· ≠ w.b)).foldl (fun c x => c.bufRelease x) c).bufs w.b = c.bufs w.b := by
    rw [h3, if_neg (by simp)]
  refine ⟨h1.bufRelease (h2.nbufs ▸ hb.1) (by rw [hbb]; exact hb.2), h2.trans (bufRelease_sameData _ _), fun y hy => ?_⟩
  have hyb : y ≠ w.b := fun he => hy (he ▸ hmem)
  rw [bufRelease_bufs, if_neg hyb, h3, if_neg fun hm => hy (mem_filter.1 hm).1]

/-- The end of `writeback_cluster`: with no error, all of the run is on the device. -/
lemma Inv.writebackEnd (hi : Inv s) (hc : s.call p = some cl) (hph : cl.phase = .write w) {err : Int}
    (hf : ∀ d a, f d a = s.disk d a ∨ d = s.devOf w ∧ s.source w a = some (f d a))
    (hall : err = 0 → ∀ x ∈ w.run, ∀ a, a / block = (s.cache.bufs x).blkno → a < s.len (s.devOf w) →
      s.Current (s.devOf w) a (f (s.devOf w) a)) :
    Inv ({ s with disk := f }.writebackEnd p cl w err) ∧
    Frame s ({ s with disk := f }.writebackEnd p cl w err) p := by
  have hp := hi.phase p cl hc
  rw [PhaseOk, hph] at hp
  obtain ⟨hw, hvict⟩ := hp
  obtain ⟨first, hcons⟩ := hw.consecutive
  have howns : s.ownsOf p = w.run := by
    rw [ownsOf_eq hc, hph]
    rfl
  have hbusy : ∀ x ∈ w.run, x < s.cache.nbufs ∧ (s.cache.bufs x).busy = true := by
    have := hi.busy p cl hc
    rw [hph] at this
    exact this
  have hcur : ∀ d a, a < s.len d → f d a = s.disk d a ∨ s.Current d a (f d a) := by
    intro d a _
    rcases hf d a with h1 | ⟨rfl, h1⟩
    · exact .inl h1
    · exact .inr (hw.source_eq_some hi.core h1)
  have hcore := hi.core.land hcur
  -- the cache after `mark_clean`
  set c₁ := if err = 0 then w.run.foldl (fun c x => c.markClean x) s.cache else s.cache with hc₁
  obtain ⟨hw₁, hn₁, hbusy₁, hold₁, hcore₁⟩ : c₁.Wf ∧ c₁.nbufs = s.cache.nbufs ∧
      (∀ y, (c₁.bufs y).busy = (s.cache.bufs y).busy) ∧ (∀ y, y ∉ w.run → c₁.bufs y = s.cache.bufs y) ∧
      Core { s.toStore with disk := f, cache := c₁ } := by
    by_cases he : err = 0
    · rw [if_pos he] at hc₁
      obtain ⟨h1, h2, h3⟩ := hi.core.wf.cleanAll fun x hx => (hbusy x hx).1
      rw [← hc₁] at h1 h2 h3
      refine ⟨h1, h2, fun y => ?_, fun y hy => by rw [h3, if_neg hy], hcore.clean h1 h2 h3 fun x hx a ha hl => ?_⟩
      · rw [h3]
        split <;> rfl
      have hxd := (hcons.mem hx).1.2.1
      rw [hxd] at hl
      rw [hxd]
      exact hall he x hx a ha hl
    · rw [if_neg he] at hc₁
      rw [hc₁]
      exact ⟨hi.core.wf, rfl, fun _ => rfl, fun _ _ => rfl, hcore⟩
  obtain ⟨hw₂, hsame₂, hold₂⟩ := releaseRun hw₁ hw.mem hcons.nodup fun x hx => by
    rw [hn₁, hbusy₁]
    exact hbusy x hx
  set x : Phase := if w.victim then .get else if err = 0 then .flushing else cl.afterFlush err with hx
  have hxo : x.owns = [] ∧ ∀ s' : Store, s'.PhaseOk { cl with phase := x } := by
    rw [hx]
    split
    · rename_i hv
      exact ⟨rfl, fun _ => hvict hv⟩
    split
    · exact ⟨rfl, fun _ => trivial⟩
    rename_i hne
    unfold Call.afterFlush
    split
    · exact ⟨rfl, fun _ => trivial⟩
    · rename_i hop
      exact ⟨rfl, fun _ => phaseOk_done (by rw [hop]; nofun) (by rw [hop]; nofun)⟩
    · rename_i hop
      exact ⟨rfl, fun _ => phaseOk_done (by rw [hop]; nofun) (by rw [hop]; nofun)⟩
    · rw [if_neg hne]
      exact ⟨rfl, fun _ => ⟨fun _ h0 => absurd h0 hne, fun _ _ _ h0 => absurd h0 hne⟩⟩
  have ht : { s with disk := f }.writebackEnd p cl w err = { s.setPhase p cl x with
        disk := f
        cache := ((w.run.filter (· ≠ w.b)).foldl (fun c x => c.bufRelease x) c₁).bufRelease w.b } := by
    rw [hc₁, hx]
    rfl
  rw [ht]
  refine hi.step ⟨rfl, fun q hq => update_of_ne hq _ _,
    le_of_eq (hsame₂.nbufs.trans hn₁).symm, fun y _ _ hy => ?_, fun _ _ => .inl rfl, hcur⟩
    (hcore₁.sameData hsame₂ hw₂) fun cl' hcl' => ?_
  · rw [howns] at hy
    exact (hold₂ y hy).trans (hold₁ y hy)
  cases called hcl'
  refine ⟨fun a => hi.since p cl a hc, hi.op p cl hc, ?_, hxo.2 _, ?_⟩
  · rw [hxo.1]
    exact .nil
  rw [hxo.1]
  exact nofun

/-- All of the request in progress has reached the device. -/
lemma landed_disk {s : Store} (d a : Nat) :
    (update s.disk (s.devOf w) fun a => (s.source w a).getD (s.disk (s.devOf w) a)) d a = s.disk d a ∨ d = s.devOf w ∧
    s.source w a = some ((update s.disk (s.devOf w) fun a => (s.source w a).getD (s.disk (s.devOf w) a)) d a) := by
  by_cases hd : d = s.devOf w
  · subst hd
    rw [update_self]
    cases s.source w a with
    | none => exact .inl rfl
    | some v => exact .inr ⟨rfl, rfl⟩
  · rw [update_of_ne hd]
    exact .inl rfl

/-- The blocks of the requests up to this one are on the device. -/
lemma landed_current {s : Store} (h : Core s) (hw : s.WriteOk w) {pre : List Nat}
    (hpre : ∀ x ∈ pre, ∀ a, a / block = (s.cache.bufs x).blkno →
      a < s.len (s.devOf w) → s.Current (s.devOf w) a (s.disk (s.devOf w) a)) :
    ∀ x ∈ pre ++ w.req, ∀ a, a / block = (s.cache.bufs x).blkno → a < s.len (s.devOf w) → s.Current (s.devOf w) a
        ((update s.disk (s.devOf w) fun a => (s.source w a).getD (s.disk (s.devOf w) a)) (s.devOf w) a) := by
  intro x hx a ha hl
  rw [update_self]
  cases hs : s.source w a with
  | some v => exact hw.source_eq_some h hs
  | none =>
    rcases mem_append.1 hx with hx | hx
    · exact hpre x hx a ha hl
    obtain ⟨v, hv⟩ := hw.source_covers h hx ha hl
    rw [hs] at hv
    cases hv

lemma step_wrote (hi : Inv s) (he : s.exec (.wrote p ok) = some t) : Inv t ∧ Frame s t p := by
  obtain ⟨cl, hc, he⟩ := bind_eq_some_iff.1 he
  split at he
  swap
  · cases he
  rename_i w hph
  have hp := hi.phase p cl hc
  rw [PhaseOk, hph] at hp
  obtain ⟨pre, hrun, hpre⟩ := hp.1.split
  have hcur := landed_current hi.core hp.1 hpre
  split at he
  swap
  · cases he
    exact hi.writebackEnd hc hph (fun _ _ => .inl rfl) nofun
  split at he
  · rename_i hrest
    cases he
    refine hi.writebackEnd hc hph landed_disk fun _ x hx => hcur x ?_
    rwa [hrun, hrest, append_nil] at hx
  rename_i x xs hrest
  cases he
  refine hi.land hc hph landed_disk { w with req := [x], rest := xs } rfl ?_ rfl
  refine ⟨hp.1.mem, hp.1.consecutive, hp.1.dirty, ⟨pre ++ w.req, ?_, hcur⟩, by simp, hp.1.staging⟩
  show w.run = _
  rw [hrun, hrest]
  simp

lemma step_directDone (hi : Inv s) (he : s.exec (.directDone p ok) = some t) : Inv t ∧ Frame s t p := by
  obtain ⟨cl, hc, he⟩ := bind_eq_some_iff.1 he
  split at he
  · rename_i hph
    split at he
    · cases he
      exact hi.moveTo hc _ rfl rfl rfl (by rw [hph]; rfl) trivial
    cases he
    exact hi.moveTo hc { cl with phase := .done (-5) } rfl rfl rfl (by rw [hph]; rfl) ⟨nofun, nofun⟩
  · cases he

lemma step_rawFlushed (hi : Inv s) (he : s.exec (.rawFlushed p ok) = some t) : Inv t ∧ Frame s t p := by
  obtain ⟨cl, hc, he⟩ := bind_eq_some_iff.1 he
  split at he
  · rename_i hph
    have hp := hi.phase p cl hc
    rw [PhaseOk, hph] at hp
    cases he
    refine hi.moveTo hc { cl with phase := .done _ } rfl rfl rfl (by rw [hph]; rfl) ⟨fun _ _ => hp.2, ?_⟩
    intro off len hop
    exact absurd (hp.1.symm.trans hop) nofun
  · cases he

lemma step_ret (hi : Inv s) (he : s.exec (.ret p) = some t) : Inv t ∧ Frame s t p := by
  obtain ⟨cl, hc, he⟩ := bind_eq_some_iff.1 he
  split at he
  · cases he
    refine hi.step ⟨rfl, fun q hq => update_of_ne hq _ _, le_rfl, fun _ _ _ _ => rfl,
      fun _ _ => .inl rfl, fun _ _ _ => .inl rfl⟩ hi.core fun cl' hcl' => ?_
    cases called hcl'
  · cases he

lemma Inv.exec {l : Label} (hi : Inv s) (hr : s.inRange l = true) (he : s.exec l = some t) :
    Inv t ∧ Frame s t l.proc := by
  cases l with
  | call p d op late => exact step_call hi hr he
  | loop p late => exact step_loop hi he
  | scan p pages => exact step_scan hi he
  | get p mem pages => exact step_get hi he
  | bread p mem => exact step_bread hi he
  | take p a => exact step_take hi he
  | filled p ok => exact step_filled hi he
  | copy p => exact step_copy hi he
  | land p a => exact step_land hi he
  | wrote p ok => exact step_wrote hi he
  | directDone p ok => exact step_directDone hi he
  | rawFlushed p ok => exact step_rawFlushed hi he
  | ret p => exact step_ret hi he

lemma start_inv (len : Nat → Nat) (disk : Nat → Nat → UInt8) : Inv (start len disk) where
  core := {
    wf := {
      hashIff := fun h b => by simp [start, empty]
      hashNodup := fun h => .nil
      unique := fun b b' d k hb => absurd hb.1 (Nat.not_lt_zero _)
      lruNodup := .nil
      lruIff := fun b => by simp [start, empty]
      ndirty := rfl }
    histNe := fun d a => cons_ne_nil _ _
    content := fun b hb => absurd hb (Nat.not_lt_zero _)
    disk := fun d a _ _ => rfl
    range := fun b hb => absurd hb (Nat.not_lt_zero _)
    dirtyValid := fun b hb => absurd hb (Nat.not_lt_zero _) }
  since := nofun
  op := nofun
  busy := nofun
  nodup := nofun
  apart := nofun
  phase := nofun

end BSys

end Hermes.L4.Bcache
