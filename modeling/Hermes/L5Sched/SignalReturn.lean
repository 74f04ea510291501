import Hermes.L5Sched.Signal

/-!
# A handler returns to what it interrupted

A frame is read back as it was written (`FrameKept.ucontext`), and `sys_rt_sigreturn` puts it back into the process. The
frame is below the red zone of the interrupted program, or on the alternate stack, which may be right under that zone.

* `signal_frame_round_trip`: exactly when the frame is in its place (`ZoneFree`) and when the handler returns to what was
  interrupted (`Returns`); and no system call returns `-ERESTARTSYS`.
* `frame_not_returned`: `sys_rt_sigreturn` takes a stack pointer at the end of user space for an invalid one, and kills a
  program whose stack is there, and empty. `signal_setup_frame` leaves the red zone free on the stack that is in use, but
  starts at the end of an alternate stack even where that is in the red zone of the program. And the alternate stack is not
  set again where the program would be back on the one that its handler has chosen.
-/
namespace Hermes.L5

open List

/-! ## Bits -/

/-- Bits that are taken from two words by a mask, and one bit outside it. -/
lemma merge_and {x y m f : UInt64} (hf : f &&& m = 0) : ((x &&& ~~~m) ||| (y &&& m) ||| f) &&& m = y &&& m := by
  have hbits : ∀ i, (f.toBitVec.getLsbD i && m.toBitVec.getLsbD i) = false := by
    intro i
    have := congrArg (fun z : UInt64 => z.toBitVec.getLsbD i) hf
    simpa using this
  apply UInt64.toBitVec_inj.1
  apply BitVec.eq_of_getLsbD_eq
  intro i hi
  have := hbits i
  cases hm : m.toBitVec.getLsbD i <;> simp_all

/-- A mask that has none of the bits keeps all of its own. -/
lemma and_not_of_and {x m : UInt64} (h : x &&& m = 0) : x &&& ~~~m = x := by
  apply UInt64.toBitVec_inj.1
  apply BitVec.eq_of_getLsbD_eq
  intro i hi
  have hbit := congrArg (fun z : UInt64 => z.toBitVec.getLsbD i) h
  simp only [UInt64.toBitVec_and] at hbit ⊢
  cases hm : m.toBitVec.getLsbD i <;> simp_all

@[simp] lemma SigMask.of_bits (m : SigMask) : SigMask.of m.bits = m := by
  obtain ⟨bits, ok⟩ := m
  simp only [of, and_not_of_and ok]

/-- `sp & ~15` -/
lemma toNat_align (x : UInt64) : (x &&& ~~~15).toNat = x.toNat / 16 * 16 := by
  have hx := x.toNat_lt
  have hmask : (~~~(15 : UInt64)).toNat = (2 ^ 60 - 1) * 2 ^ 4 := by decide
  rw [UInt64.toNat_and, hmask, (Nat.shiftRight_eq_div_pow _ 4).symm,
    show x.toNat >>> 4 * 16 = (x.toNat >>> 4) <<< 4 from (Nat.shiftLeft_eq _ 4).symm, ← Nat.shiftLeft_eq]
  apply Nat.eq_of_testBit_eq
  intro i
  rw [Nat.testBit_and, Nat.testBit_shiftLeft, Nat.testBit_shiftLeft, Nat.testBit_two_pow_sub_one, Nat.testBit_shiftRight]
  by_cases h4 : 4 ≤ i
  · rw [Nat.add_sub_cancel' h4]
    by_cases h64 : i < 64
    · simp [h4, show i - 4 < 60 by omega]
    have hhigh : x.toNat.testBit i = false :=
      Nat.testBit_lt_two_pow (lt_of_lt_of_le hx (Nat.pow_le_pow_right (by decide) (by omega)))
    simp [hhigh]
  · simp [h4]

/-! ## The frame -/

lemma UserMem.store_word (u : UserMem) (a : UInt64) {ws : List UInt64} {i : Nat} (hi : i < ws.length)
    (hmax : ws.length ≤ 64) : (u.store a ws).word (a + UInt64.ofNat (8 * i)) = ws.getD i 0 := by
  have hdiff : a + .ofNat (8 * i) - a = .ofNat (8 * i) := by rw [add_comm, UInt64.add_sub_cancel]
  have hnat : (UInt64.ofNat (8 * i)).toNat = 8 * i := by exact Nat.mod_eq_of_lt (by omega)
  have hmod : UInt64.ofNat (8 * i) % 8 = 0 := by
    apply UInt64.toNat_inj.1
    rw [UInt64.toNat_mod, hnat]
    exact Nat.mul_mod_right 8 i
  have hdiv : (UInt64.ofNat (8 * i) / 8).toNat = i := by
    rw [UInt64.toNat_div, hnat]
    exact Nat.mul_div_cancel_left i (by decide)
  simp only [store, hdiff, hmod, hdiv]
  rw [if_pos ⟨trivial, hi⟩]

/-- The words of a frame are read back. -/
lemma ofWords_ucontextWords (c : Context) (stack : SigAltStack) (mask : SigMask) :
    UContext.ofWords (fun i => (ucontextWords c stack mask).getD i 0) = ⟨stack, c.toRegs, mask.bits⟩ := by
  simp [UContext.ofWords, ucontextWords]

/-! ## The alternate stack -/

/-- The flags of an alternate stack, taken apart again. -/
lemma AltStack.get_flags (a : AltStack) (sp : UInt64) (h : a.size ≠ 0) :
    ((a.get sp).flags &&& ~~~ssAutodisarm = 0 ∨ (a.get sp).flags &&& ~~~ssAutodisarm = ssOnstack) ∧
      (a.get sp).flags &&& ssAutodisarm = a.flags := by
  have hflags : a.flags = 0 ∨ a.flags = ssAutodisarm := by
    rcases a.ok with ⟨-, h0, -⟩ | ⟨-, -, -, hflags⟩
    · exact absurd h0 h
    · exact hflags
  simp only [get, if_neg h]
  rcases hflags with hf | hf <;> rw [hf]
  · split <;> decide
  split <;> decide

/-- The alternate stack is set again as it was when the frame was made, unless the program is back on one. -/
lemma AltStack.set_get (a b : AltStack) {sp : UInt64} (h : b.on sp = false) : b.set (a.get sp) sp = .ok a := by
  rw [set, if_neg (by simp [h])]
  by_cases hsize : a.size = 0
  · have hnone : a = .none := by
      rcases a.ok with ⟨h0, -, hf⟩ | ⟨hmin, -⟩
      · exact AltStack.ext h0 hsize hf
      rw [hsize] at hmin
      exact absurd hmin (by decide)
    have hflags : (none.get sp).flags = ssDisable := rfl
    rw [hnone, if_neg (by rw [hflags]; decide), if_pos (by rw [hflags]; decide)]
  obtain ⟨hmode, hauto⟩ := a.get_flags sp hsize
  obtain ⟨hmin, hle, hlimit, -⟩ := a.ok.resolve_left fun h0 => hsize h0.2.1
  have hdisable : (a.get sp).flags &&& ~~~ssAutodisarm ≠ ssDisable := by
    rcases hmode with hm | hm <;> rw [hm]
    · decide
    decide
  have hsum : ¬ ((a.get sp).sp + (a.get sp).size < (a.get sp).sp ∨ userAddrLimit < (a.get sp).sp + (a.get sp).size) :=
    not_or.2 ⟨UInt64.not_lt.2 hle, UInt64.not_lt.2 hlimit⟩
  rw [if_neg (by tauto), if_neg hdisable, dif_neg (UInt64.not_lt.2 (show minsigstksz ≤ (a.get sp).size from hmin)),
    dif_neg hsum]
  exact congrArg Except.ok (AltStack.ext rfl rfl hauto)

/-! ## Delivery -/

section Setup

variable {u u' : UserMem} {c c' : Context} {p p' : SigProc} {sig : Fin 64}

/-- What a frame that is set up was checked for, and what there is then. -/
lemma signalSetupFrame_some (h : signalSetupFrame u c p sig = some (u', c', p')) :
    u.writable (p.frameSp sig c.rsp) frameLen.toNat = true ∧
      ((p.toAlt sig c.rsp ∨ p.alt.on c.rsp) → p.alt.sp ≤ p.frameSp sig c.rsp) ∧
      u' = u.store (p.frameSp sig c.rsp) (frameWords c p sig (p.frameSp sig c.rsp) p.returnMask) ∧
      c'.rsp = p.frameSp sig c.rsp ∧ c'.rax = 0 := by
  unfold signalSetupFrame at h
  dsimp only at h
  split at h
  · cases h
  split at h
  · cases h
  split at h
  · cases h
  rename_i halt hw
  cases h
  refine ⟨by simpa using hw, fun hon => ?_, rfl, rfl, rfl⟩
  exact UInt64.not_lt.1 fun hlt => halt ⟨hon, hlt⟩

/-- A frame that goes to the end of the alternate stack does not reach into the red zone of the interrupted program. -/
def SigProc.ZoneFree (p : SigProc) (sig : Fin 64) (rsp : UInt64) : Prop := p.toAlt sig rsp = true →
  ¬ (p.alt.sp + p.alt.size < rsp ∧ rsp.toNat < ((p.alt.sp + p.alt.size).toNat - 448) / 16 * 16 + 440 + redZone.toNat)

/-- The frame is apart from the red zone of the interrupted program, and inside the alternate stack if that is used. -/
structure FramePlaced (p : SigProc) (sig : Fin 64) (rsp sp : UInt64) : Prop where
  redZone : sp.toNat + frameLen.toNat ≤ rsp.toNat - L5.redZone.toNat ∨ rsp.toNat ≤ sp.toNat
  inside : p.toAlt sig rsp = true ∨ p.alt.on rsp = true →
    p.alt.sp.toNat ≤ sp.toNat ∧ sp.toNat + frameLen.toNat ≤ (p.alt.sp + p.alt.size).toNat

/-- Off the alternate stack a program is below it or above. -/
lemma SigProc.toAlt_apart {rsp : UInt64} (h : p.toAlt sig rsp = true) :
    rsp.toNat ≤ p.alt.sp.toNat ∨ (p.alt.sp + p.alt.size).toNat < rsp.toNat := by
  unfold toAlt at h
  simp only [Bool.and_eq_true, Bool.not_eq_true', decide_eq_true_eq] at h
  obtain ⟨⟨-, hsize⟩, hoff⟩ := h
  by_contra hin
  have hon : p.alt.on rsp = true := by
    unfold AltStack.on
    simp only [Bool.and_eq_true, decide_eq_true_eq]
    refine ⟨⟨hsize, UInt64.lt_iff_toNat_lt.2 (by omega)⟩, UInt64.le_iff_toNat_le.2 ?_⟩
    rw [UInt64.toNat_sub_of_le _ _ (UInt64.le_iff_toNat_le.2 (by omega))]
    have hadd := UInt64.toNat_add p.alt.sp p.alt.size
    omega
  rw [hon] at hoff
  cases hoff

/-- On the alternate stack a program is not above its end. -/
lemma AltStack.on_le {a : AltStack} {sp : UInt64} (h : a.on sp = true) : sp.toNat ≤ (a.sp + a.size).toNat := by
  unfold on at h
  simp only [Bool.and_eq_true, decide_eq_true_eq] at h
  obtain ⟨⟨hsize, hlt⟩, hin⟩ := h
  rw [UInt64.le_iff_toNat_le, UInt64.toNat_sub_of_le _ _ (UInt64.le_iff_toNat_le.2 hlt.le)] at hin
  have hno : a.sp ≤ a.sp + a.size := by
    rcases a.ok with ⟨-, h0, -⟩ | ⟨-, hno, -⟩
    · exact absurd h0 hsize
    · exact hno
  have hno' := UInt64.le_iff_toNat_le.1 hno
  have hadd := UInt64.toNat_add a.sp a.size
  have hz := a.size.toNat_lt
  omega

lemma signalSetupFrame_place (h : signalSetupFrame u c p sig = some (u', c', p')) :
    FramePlaced p sig c.rsp c'.rsp ↔ p.ZoneFree sig c.rsp := by
  obtain ⟨hw, hbottom, -, hsp, -⟩ := signalSetupFrame_some h
  have huser := u.user _ _ hw
  have hlen : frameLen.toNat = 448 := rfl
  have hzone : redZone.toNat = 128 := rfl
  have hlimit : userAddrLimit.toNat = 2 ^ 47 := rfl
  rw [hsp]
  set base := if p.toAlt sig c.rsp then p.alt.sp + p.alt.size else c.rsp - redZone with hbase
  have hframe : (p.frameSp sig c.rsp).toNat + 8 = (base.toNat - 448) / 16 * 16 ∧ 456 ≤ base.toNat := by
    have hfsp : p.frameSp sig c.rsp = ((base - frameLen) &&& ~~~15) - 8 := by rw [hbase]; rfl
    have hb := base.toNat_lt
    rw [hfsp, UInt64.toNat_sub, toNat_align, UInt64.toNat_sub, show (8 : UInt64).toNat = 8 from rfl] at huser ⊢
    omega
  cases hto : p.toAlt sig c.rsp with
  | true =>
    rw [if_pos hto] at hbase
    rw [hto] at hbottom
    have hge := UInt64.le_iff_toNat_le.1 (hbottom (.inl rfl))
    rw [hbase] at hframe
    have hapart := SigProc.toAlt_apart hto
    have hiff : FramePlaced p sig c.rsp (p.frameSp sig c.rsp) ↔
        (p.frameSp sig c.rsp).toNat + 448 ≤ c.rsp.toNat - 128 ∨ c.rsp.toNat ≤ (p.frameSp sig c.rsp).toNat :=
      ⟨fun h => h.redZone, fun h => ⟨h, fun _ => ⟨hge, by omega⟩⟩⟩
    rw [hiff, SigProc.ZoneFree, hto, forall_prop_of_true rfl, UInt64.lt_iff_toNat_lt]
    omega
  | false =>
    rw [if_neg (by simp [hto])] at hbase
    have hb : base.toNat = (c.rsp.toNat + (2 ^ 64 - 128)) % 2 ^ 64 := by
      rw [hbase, UInt64.toNat_sub]
      omega
    refine iff_of_true ⟨.inl (by omega), fun hon => ?_⟩ fun hc => by rw [hto] at hc; cases hc
    rw [hto] at hon
    have hon := hon.resolve_left (by simp)
    have hge := UInt64.le_iff_toNat_le.1 (hbottom (.inr hon))
    have htop := AltStack.on_le hon
    exact ⟨hge, by omega⟩

end Setup

/-! ## The loop -/

lemma testBit_signalBit (sig i : Fin 64) : (signalBit sig).toNat.testBit i = decide (i = sig) := by
  have hsig := sig.isLt
  have h : (signalBit sig).toNat = 2 ^ sig.val := by
    rw [signalBit, UInt64.toNat_shiftLeft, UInt64.toNat_ofNat', Nat.mod_eq_of_lt (show sig.val < 2 ^ 64 by omega),
      Nat.mod_eq_of_lt hsig, UInt64.toNat_one, Nat.one_shiftLeft]
    exact Nat.mod_eq_of_lt (Nat.pow_lt_pow_right (by decide) hsig)
  rw [h, Nat.testBit_two_pow]
  exact decide_eq_decide.2 ⟨fun he => Fin.ext he.symm, fun he => (congrArg Fin.val he).symm⟩

/-- The signals that are pending. -/
def SigProc.waiting (p : SigProc) : Finset (Fin 64) := Finset.univ.filter fun i => p.pending.toNat.testBit i

/-- A signal that is taken does not wait any more. -/
lemma waiting_take {p : SigProc} {sig : Fin 64} (h : lowestBit p.deliverable = some sig) :
    (SigProc.waiting { p with pending := p.pending &&& ~~~signalBit sig }).card < p.waiting.card := by
  have hbit : p.pending.toNat.testBit sig = true := by
    have hfound := find?_some h
    rw [SigProc.deliverable, UInt64.toNat_and, Nat.testBit_and, Bool.and_eq_true] at hfound
    exact hfound.1
  apply Finset.card_lt_card
  refine ⟨fun i hi => ?_, fun hsub => ?_⟩
  · rw [SigProc.waiting, Finset.mem_filter, UInt64.toNat_and, Nat.testBit_and, Bool.and_eq_true] at hi
    exact Finset.mem_filter.2 ⟨Finset.mem_univ i, hi.2.1⟩
  have hmem := hsub (Finset.mem_filter.2 ⟨Finset.mem_univ sig, hbit⟩)
  rw [SigProc.waiting, Finset.mem_filter, UInt64.toNat_and, Nat.testBit_and] at hmem
  have hnot : (~~~signalBit sig).toNat.testBit sig = !(signalBit sig).toNat.testBit sig := by
    have hb := BitVec.getLsbD_not (x := (signalBit sig).toBitVec) (i := sig.val)
    rw [decide_eq_true sig.isLt] at hb
    exact hb
  rw [hnot, testBit_signalBit] at hmem
  simp at hmem

section Loop

variable {u u' : UserMem} {r : Bool} {nr : Int64} {c c' : Context} {n : Nat} {p p' : SigProc} {sig : Fin 64}

/-- A handler runs for a signal that the loop took. Before it, only pending signals are lost. -/
lemma signalLoop_handler (h : signalLoop u r nr c n p = .handler sig u' c' p') :
    ∃ pending, signalSetupFrame u (interrupted r nr (p.actions sig) c) { p with pending := pending } sig =
      some (u', c', p') := by
  induction n generalizing p with
  | zero => cases h
  | succ n ih =>
    rw [signalLoop] at h
    split at h
    · cases h
    dsimp only at h
    split at h
    · obtain ⟨pending, hset⟩ := ih h
      exact ⟨pending, hset⟩
    split at h
    · cases h
    split at h
    · cases h
    rename_i hset
    cases h
    exact ⟨_, hset⟩

/-- Where there is nothing to handle, a system call is made again. -/
lemma signalLoop_user (hn : p.waiting.card < n) (h : signalLoop u r nr c n p = .user c' p') :
    c' = if r then signalRestart c nr else c := by
  induction n generalizing p with
  | zero => omega
  | succ n ih =>
    rw [signalLoop] at h
    split at h
    · cases h
      rfl
    rename_i hlow
    have hless := waiting_take hlow
    dsimp only at h
    split at h
    · exact ih (by omega) h
    split at h
    · cases h
    split at h <;> cases h

end Loop

lemma SigProc.waiting_card (p : SigProc) : p.waiting.card ≤ 64 :=
  (Finset.card_le_univ p.waiting).trans_eq (Fintype.card_fin 64)

/-- A system call that has to be made again does not return to user code: it is made again, or fails with `EINTR`. -/
def SigOutcome.RestartHidden : SigOutcome → Prop
  | .user c _ => c.rax ≠ errnoRet erestartsys
  | .handler _ u c _ => c.rax ≠ errnoRet erestartsys ∧ u.word (c.rsp + UInt64.ofNat (8 * 19)) ≠ errnoRet erestartsys
  | .exit _ => True

/-- What a handler returns to. -/
def resumed (c : Context) (p : SigProc) (sig : Fin 64) : Context :=
  interrupted (restartable c p) p.syscallNr (p.actions sig) c

section Deliver

variable {u u' : UserMem} {c c' : Context} {p p' : SigProc} {sig : Fin 64}

lemma signalDeliver_handler (h : signalDeliver u c p = .handler sig u' c' p') : ∃ q : SigProc, q.actions = p.actions ∧
    q.alt = p.alt ∧ q.returnMask = p.returnMask ∧ signalSetupFrame u (resumed c p sig) q sig = some (u', c', p') := by
  unfold signalDeliver at h
  split at h
  · cases h
  obtain ⟨pending, hset⟩ := signalLoop_handler h
  exact ⟨{ p with syscallNr := -1, pending := pending }, rfl, rfl, rfl, hset⟩

lemma length_frameWords (c : Context) (p : SigProc) (sig : Fin 64) (sp : UInt64) (mask : SigMask) :
    (frameWords c p sig sp mask).length = 56 := by
  simp [frameWords, ucontextWords, siginfoWords]

/-- The words of the `ucontext_s` in a frame. -/
lemma getD_frameWords (c : Context) (p : SigProc) (sig : Fin 64) (sp : UInt64) (mask : SigMask) {i : Nat} (hi : i < 38) :
    (frameWords c p sig sp mask).getD (i + 1) 0 = (ucontextWords c (p.alt.get c.rsp) mask).getD i 0 := by
  have hlen : (ucontextWords c (p.alt.get c.rsp) mask).length = 38 := rfl
  rw [frameWords, cons_append, cons_append, getD_cons_succ, append_assoc, getD_append _ _ _ _ (by omega)]

/-- The frame at `sp` is as the kernel left it. -/
structure FrameKept (u u₂ : UserMem) (sp : UInt64) : Prop where
  words : ∀ i < 38, u₂.word (sp + UInt64.ofNat (8 * (i + 1))) = u.word (sp + UInt64.ofNat (8 * (i + 1)))
  readable : u₂.readable (sp + 8) 304 = true

/-- What `sys_rt_sigreturn` reads of a frame that was kept. -/
lemma FrameKept.ucontext {u₂ : UserMem} {rsp : UInt64} (hset : signalSetupFrame u c p sig = some (u', c', p'))
    (hk : FrameKept u' u₂ c'.rsp) (hrsp : rsp = c'.rsp + 8) :
    UContext.ofWords (fun i => u₂.word (rsp + UInt64.ofNat (8 * i))) = ⟨p.alt.get c.rsp, c.toRegs, p.returnMask.bits⟩ := by
  obtain ⟨-, -, hu, hsp, -⟩ := signalSetupFrame_some hset
  have hword : ∀ i < 38, u₂.word (rsp + .ofNat (8 * i)) =
      (ucontextWords c (p.alt.get c.rsp) p.returnMask).getD i 0 := by
    intro i hi
    have haddr : rsp + .ofNat (8 * i) = c'.rsp + .ofNat (8 * (i + 1)) := by
      rw [hrsp, add_assoc, show (8 : UInt64) = .ofNat 8 from rfl, ← UInt64.ofNat_add]
      congr 2
      omega
    rw [haddr, hk.words i hi, hu, hsp, UserMem.store_word _ _ (by rw [length_frameWords]; omega)
      (by rw [length_frameWords]; decide), getD_frameWords _ _ _ _ _ hi]
  rw [← ofWords_ucontextWords]
  simp only [UContext.ofWords]
  simp only [hword 2 (by decide), hword 3 (by decide), hword 4 (by decide), hword 5 (by decide), hword 6 (by decide),
    hword 7 (by decide), hword 8 (by decide), hword 9 (by decide), hword 10 (by decide), hword 11 (by decide),
    hword 12 (by decide), hword 13 (by decide), hword 14 (by decide), hword 15 (by decide), hword 16 (by decide),
    hword 17 (by decide), hword 18 (by decide), hword 19 (by decide), hword 20 (by decide), hword 21 (by decide),
    hword 22 (by decide), hword 37 (by decide)]

/-- The process that a handler was set up for is back where it was interrupted, with its registers, the flags it may
change, the mask and the alternate stack. -/
structure SigRestored (c : Context) (m : SigMask) (alt : AltStack) (c₃ : Context) (p₃ : SigProc) : Prop where
  regs : c₃.toRegs = { c.toRegs with rflags := c₃.rflags }
  flags : c₃.rflags &&& rflagsUser = c.rflags &&& rflagsUser
  mask : p₃.blocked = m
  alt : p₃.alt = alt

/-- What `sys_rt_sigreturn` asks for where the process has the alternate stack `now`: code and stack of the user, and that
the program is not back on an alternate stack other than its own. -/
def Returns (c : Context) (alt now : AltStack) : Prop :=
  c.rip < userAddrLimit ∧ c.rsp < userAddrLimit ∧ (now.on c.rsp = true → now = alt)

/-- `sys_rt_sigreturn` with the frame that was set up. -/
lemma sysRtSigreturn_frame {u₂ : UserMem} {c₂ : Context} {p₂ : SigProc}
    (hset : signalSetupFrame u c p sig = some (u', c', p')) (hk : FrameKept u' u₂ c'.rsp) (hc : c₂.rsp = c'.rsp + 8) :
    (∃ c₃ p₃, sysRtSigreturn u₂ c₂ p₂ = .user c₃ p₃ ∧ SigRestored c p.returnMask p.alt c₃ p₃) ↔ Returns c p.alt p₂.alt := by
  unfold sysRtSigreturn
  rw [if_neg (by rw [hc, hk.readable]; decide), hk.ucontext hset hc]
  dsimp only
  by_cases hlim : userAddrLimit ≤ c.rip ∨ userAddrLimit ≤ c.rsp
  · rw [if_pos hlim]
    refine iff_of_false ?_ fun h => hlim.elim (UInt64.not_le.2 h.1) (UInt64.not_le.2 h.2.1)
    rintro ⟨_, _, h, -⟩
    cases h
  rw [if_neg hlim]
  obtain ⟨hrip, hrsp⟩ := not_or.1 hlim
  have hperm : p₂.alt.on c.rsp = true → p₂.alt.set (p.alt.get c.rsp) c.rsp = .error .perm := fun hon => if_pos hon
  constructor
  · rintro ⟨_, _, h, hr⟩
    cases h
    refine ⟨UInt64.not_le.1 hrip, UInt64.not_le.1 hrsp, fun hon => ?_⟩
    have halt := hr.alt
    rw [hperm hon] at halt
    exact halt
  · rintro ⟨-, -, hstack⟩
    refine ⟨_, _, rfl, rfl, merge_and (by decide), SigMask.of_bits _, ?_⟩
    cases hon : p₂.alt.on c.rsp with
    | true =>
      rw [hperm hon]
      exact hstack hon
    | false => rw [AltStack.set_get p.alt p₂.alt hon]

end Deliver

/-! ## The mask that a call waited with -/

/-- The mask that the program had before the system call it is in, if it is in one. -/
inductive MaskBefore (p : SigProc) : SigMask → Prop
  | running (h : p.restoreMask = false) : MaskBefore p p.blocked
  | suspended (q : SigProc) (m : UInt64) (hs : p.savedBlocked = (q.sigsuspend m).savedBlocked)
      (hr : p.restoreMask = (q.sigsuspend m).restoreMask) : MaskBefore p q.blocked
  | polled (q : SigProc) (m r : UInt64) (h0 : q.restoreMask = false)
      (hb : p.blocked = ((q.pollMask m).pollEnd q.blocked r).blocked)
      (hs : p.savedBlocked = ((q.pollMask m).pollEnd q.blocked r).savedBlocked)
      (hr : p.restoreMask = ((q.pollMask m).pollEnd q.blocked r).restoreMask) : MaskBefore p q.blocked

variable {p : SigProc} {c : Context} {u : UserMem}

lemma MaskBefore.returnMask {m : SigMask} (h : MaskBefore p m) : p.returnMask = m := by
  unfold SigProc.returnMask
  cases h with
  | running h => rw [h, if_neg Bool.false_ne_true]
  | suspended q m hs hr =>
    rw [hr]
    exact (if_pos (rfl)).trans hs
  | polled q m r h0 hb hs hr =>
    rw [hb, hs, hr]
    unfold SigProc.pollEnd
    split
    · exact if_pos rfl
    · exact if_neg (by simp [SigProc.pollMask, h0])

/-! ## Restarted system calls -/

lemma toUInt64_ne_erestartsys {nr : Int64} (h : 0 ≤ nr) : nr.toUInt64 ≠ errnoRet erestartsys := by
  intro he
  have hnr : nr = (errnoRet erestartsys).toInt64 := by rw [← he, Int64.toInt64_toUInt64]
  rw [hnr] at h
  exact absurd h (by decide)

lemma interrupted_rax {act : SigAction} (h : c.rax = errnoRet erestartsys → restartable c p = true) :
    (interrupted (restartable c p) p.syscallNr act c).rax ≠ errnoRet erestartsys := by
  unfold interrupted
  split <;> rename_i hr
  · have hnr : 0 ≤ p.syscallNr := by
      unfold restartable at hr
      simp only [Bool.and_eq_true, decide_eq_true_eq] at hr
      exact hr.1.2
    split
    · exact toUInt64_ne_erestartsys hnr
    · exact (by decide : errnoRet eintr ≠ errnoRet erestartsys)
  · exact fun he => hr (h he)

/-- No way out of `signal_deliver` shows that a system call has to be made again. -/
lemma signalDeliver_hidden (hcs : c.cs &&& 3 = 3)
    (h : c.rax = errnoRet erestartsys → restartable c p = true) : (signalDeliver u c p).RestartHidden := by
  cases hout : signalDeliver u c p with
  | exit _ => trivial
  | user c' p' =>
    rw [signalDeliver, if_neg (not_not.2 hcs)] at hout
    have hc := signalLoop_user (Nat.lt_succ_of_le (SigProc.waiting_card _)) hout
    rw [hc]
    split <;> rename_i hr
    · refine toUInt64_ne_erestartsys ?_
      unfold restartable at hr
      simp only [Bool.and_eq_true, decide_eq_true_eq] at hr
      exact hr.1.2
    · exact fun he => hr (h he)
  | handler sig u' c' p' =>
    obtain ⟨q, -, -, -, hset⟩ := signalDeliver_handler hout
    obtain ⟨-, -, hu, hsp, hrax⟩ := signalSetupFrame_some hset
    refine ⟨?_, ?_⟩
    · rw [hrax]
      decide
    rw [hu, hsp, UserMem.store_word _ _ (by rw [length_frameWords]; decide) (by rw [length_frameWords]; decide)]
    exact interrupted_rax h

lemma deliverSyscallSignals_hidden (hcs : c.cs &&& 3 = 3)
    (h : c.rax = errnoRet erestartsys → restartable c p = true) : (deliverSyscallSignals u c p).RestartHidden := by
  unfold deliverSyscallSignals
  rw [if_neg (not_not.2 hcs)]
  split
  · rename_i hquiet
    exact hquiet.1
  · exact signalDeliver_hidden hcs h

lemma syscallDispatch_hidden {ret : UInt64} (hcs : c.cs &&& 3 = 3)
    (hv : c.interruptNumber = syscallVector) : (syscallDispatch u c p ret).RestartHidden := by
  refine deliverSyscallSignals_hidden hcs fun hrax => ?_
  have hnr : ¬ c.rax.toInt64 < 0 := by
    intro hlt
    dsimp only at hrax
    rw [if_pos hlt] at hrax
    exact absurd hrax (by decide)
  unfold restartable
  simp only [Bool.and_eq_true, decide_eq_true_eq]
  exact ⟨⟨hv, Int64.not_lt.1 hnr⟩, hrax⟩

/-! ## The round trip -/

lemma resumed_rsp (c : Context) (p : SigProc) (sig : Fin 64) : (resumed c p sig).rsp = c.rsp := by
  unfold resumed interrupted
  split
  · split <;> rfl
  · rfl

/-- Whatever is interrupted, and whatever the handler does but change the frame: the frame is in its place exactly if it stays
out of the red zone, and `sys_rt_sigreturn` returns to what was interrupted exactly if it takes the code and the stack there
for the user's and the program is not back on an alternate stack that its handler has set. And no system call returns
`-ERESTARTSYS`. -/
theorem signal_frame_round_trip (u : UserMem) (c : Context) (p : SigProc) :
    (∀ (u' : UserMem) (c' : Context) (p' : SigProc) (sig : Fin 64) (m : SigMask),
      signalDeliver u c p = .handler sig u' c' p' → MaskBefore p m →
      (FramePlaced p sig c.rsp c'.rsp ↔ p.ZoneFree sig c.rsp) ∧
        ∀ (u₂ : UserMem) (c₂ : Context) (p₂ : SigProc), FrameKept u' u₂ c'.rsp → c₂.rsp = c'.rsp + 8 →
          ((∃ c₃ p₃, sysRtSigreturn u₂ c₂ p₂ = .user c₃ p₃ ∧ SigRestored (resumed c p sig) m p.alt c₃ p₃) ↔
            Returns (resumed c p sig) p.alt p₂.alt)) ∧
    (∀ ret : UInt64, c.cs &&& 3 = 3 → c.interruptNumber = syscallVector →
      (syscallDispatch u c p ret).RestartHidden) := by
  refine ⟨fun u' c' p' sig m hd hm => ?_, fun ret hcs hv => syscallDispatch_hidden hcs hv⟩
  obtain ⟨q, hact, halt, hmask, hset⟩ := signalDeliver_handler hd
  have hto : q.toAlt sig c.rsp = p.toAlt sig c.rsp := by rw [SigProc.toAlt, SigProc.toAlt, hact, halt]
  have hplace := signalSetupFrame_place hset
  rw [resumed_rsp] at hplace
  refine ⟨⟨fun h => ?_, fun h => ?_⟩, fun u₂ c₂ p₂ hk hc => ?_⟩
  · have := hplace.1 ⟨h.redZone, by rw [hto, halt]; exact h.inside⟩
    rwa [SigProc.ZoneFree, hto, halt] at this
  · have := hplace.2 (by rw [SigProc.ZoneFree, hto, halt]; exact h)
    exact ⟨this.redZone, by rw [← hto, ← halt]; exact this.inside⟩
  · rw [← hm.returnMask, ← hmask, ← halt]
    exact sysRtSigreturn_frame hset hk hc

/-! A process on its stack, with a handler for SIGUSR1. -/

def quietRegs : Regs := ⟨8, 9, 10, 11, 12, 13, 14, 15, 1, 2, 3, 4, 5, 6, 7, 0x7000, 0x400000, 0x202⟩

def quietContext : Context := ⟨quietRegs, userCs, userSs, 0, 0x20⟩

def quietProc : SigProc where
  pending := signalBit 9
  blocked := .of 0
  savedBlocked := .of 0
  restoreMask := false
  actions := fun i => if i = 9 then ⟨0x500000, saRestorer, 0x600000, 0⟩ else ⟨0, 0, 0, 0⟩
  info := fun _ => ⟨0, 0, 0⟩
  syscallNr := -1
  alt := .none
  groupExit := false

/-- All of user memory is there. -/
def plainMem : UserMem where
  word _ := 0
  readable _ _ := true
  writable a n := a.toNat + n ≤ userAddrLimit.toNat
  user _ _ h := of_decide_eq_true h

theorem signal_frame_round_trip_quiet : ∃ u' c' p', signalDeliver plainMem quietContext quietProc = .handler 9 u' c' p' ∧
    FramePlaced quietProc 9 0x7000 c'.rsp ∧
    (∃ c₃ p₃, sysRtSigreturn u' { c' with rsp := c'.rsp + 8 } p' = .user c₃ p₃ ∧
      SigRestored quietContext (.of 0) .none c₃ p₃) ∧
    (syscallDispatch plainMem { quietContext with interruptNumber := syscallVector } quietProc
      (errnoRet erestartsys)).RestartHidden := by
  obtain ⟨u', c', p', hd, hu, hp⟩ : ∃ u' c' p', signalDeliver plainMem quietContext quietProc = .handler 9 u' c' p' ∧
      u'.readable (c'.rsp + 8) 304 = true ∧ p'.alt = quietProc.alt := ⟨_, _, _, rfl, rfl, rfl⟩
  obtain ⟨hplace, hreturn⟩ := (signal_frame_round_trip plainMem quietContext quietProc).1 u' c' p' 9 (.of 0) hd (.running rfl)
  refine ⟨u', c', p', hd, hplace.2 nofun, ?_, (signal_frame_round_trip _ _ _).2 _ (by decide) rfl⟩
  exact (hreturn u' { c' with rsp := c'.rsp + 8 } p' ⟨fun _ _ => rfl, hu⟩ rfl).2 ⟨by decide, by decide, fun _ => hp⟩

namespace Bugs

/-- The stack ends where user space does, and is empty. -/
def topContext : Context := { quietContext with rsp := userAddrLimit }

/-- The alternate stack ends eight bytes below the stack pointer. -/
def zoneContext : Context := { quietContext with rsp := 0x10808 }

local instance signal_neZero : NeZero 64 := ⟨by decide⟩

def zoneProc : SigProc :=
  { quietProc with
    actions := fun i => if i = 9 then ⟨0x500000, saRestorer ||| saOnstack, 0x600000, 0⟩ else ⟨0, 0, 0, 0⟩
    alt := ⟨0x10000, 0x800, 0, by decide⟩ }

/-- An alternate stack around the stack pointer of `quietContext`. -/
def aroundAlt : AltStack := ⟨0x6800, 0x1000, 0, by decide⟩

theorem frame_not_returned : (∃ u' c' p', signalDeliver plainMem topContext quietProc = .handler 9 u' c' p' ∧
      sysRtSigreturn u' { c' with rsp := c'.rsp + 8 } p' = .exit 11) ∧
    (∃ u' c' p', signalDeliver plainMem zoneContext zoneProc = .handler 9 u' c' p' ∧
      c'.rsp.toNat < zoneContext.rsp.toNat ∧ zoneContext.rsp.toNat - redZone.toNat < c'.rsp.toNat + frameLen.toNat) ∧
    (∃ u' c' p' c₃ p₃, signalDeliver plainMem quietContext quietProc = .handler 9 u' c' p' ∧
      sysRtSigreturn u' { c' with rsp := c'.rsp + 8 } { p' with alt := aroundAlt } = .user c₃ p₃ ∧
      p₃.alt = aroundAlt ∧ aroundAlt ≠ quietProc.alt) := by
  refine ⟨⟨_, _, _, rfl, rfl⟩, ⟨_, _, _, rfl, by decide, by decide⟩, ⟨_, _, _, _, _, rfl, rfl, rfl, by decide⟩⟩

end Bugs

end Hermes.L5
