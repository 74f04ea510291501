import Hermes.L5Sched.SchedLife

/-!
# Futexes

`drivers/scheduler/futex.c` over the scheduler. A waiter compares the word with the value it expects and goes to sleep
on a wait channel that is computed from the word; a wakeup makes the first sleepers on the channel of its word ready. Both
hold the kernel lock, a waiter from its comparison to its sleep; the words themselves are written by user code at any
time.

A word is known by its place: one of a shared area by its physical address, another by its address space and its address
there. Its channel has 28 bits of that, so different words may have one channel.
-/
namespace Hermes.L5

open Function List Option

/-- The address spaces: the one of each process, by the address of its `vm_space`, and what `futex_key` asks of them. -/
structure Spaces where
  vm : Nat → UInt64
  /-- `vm_populate` of the word -/
  populate : UInt64 → UInt64 → Bool
  /-- `VMA_SHARED` of the area of an address -/
  shared : UInt64 → UInt64 → Bool
  /-- `vm_translate` -/
  translate : UInt64 → UInt64 → UInt64

inductive FutexWord
  | own (vm uaddr : UInt64)
  | shared (phys : UInt64)
deriving DecidableEq

/-- `WAIT_CHANNEL_FUTEX` -/
abbrev waitChannelFutex : UInt64 := 0x10000000

/-- `id` -/
def FutexWord.id : FutexWord → UInt64
  | own vm uaddr => (uaddr >>> 2) ^^^ (vm >>> 3)
  | shared phys => phys >>> 2

/-- `*key` -/
def FutexWord.key (w : FutexWord) : Int := (waitChannelFutex ||| (w.id &&& 0x0FFFFFFF)).toNat

/-- The channels of futexes. No other wait channel of the kernel is among them. -/
def futexChannel (id : Int) : Bool := 0x10000000 ≤ id && id < 0x20000000

inductive FutexErr
  | inval
  | fault
deriving DecidableEq

/-- The word at an address. -/
def Spaces.word (sp : Spaces) (vm uaddr : UInt64) : FutexWord :=
  if sp.shared vm uaddr then .shared (sp.translate vm uaddr) else .own vm uaddr

/-- `futex_key` -/
def futexKey (sp : Spaces) (vm uaddr : UInt64) : Except FutexErr Int :=
  if uaddr &&& 3 ≠ 0 then .error .inval
  else if sp.populate vm uaddr = false then .error .fault
  else .ok (sp.word vm uaddr).key

structure FSys where
  sys : Sys
  /-- the values of the words -/
  mem : FutexWord → UInt32
  /-- the word of a call of `futex_wait` that has found the value it expects -/
  waits : Nat → Option FutexWord
  /-- the process between its comparison and its sleep -/
  holder : Option Nat

inductive FLabel
  /-- anything else in the system -/
  | sys (l : Label)
  /-- a store of user code -/
  | store (w : FutexWord) (x : UInt32)
  /-- `futex_wait` up to `process_sleep_timeout` -/
  | wait (c : Nat) (uaddr : UInt64) (expected : UInt32)
  /-- the locked section of `sleep_interruptible` -/
  | fall (c : Nat)
  /-- `futex_wait` returns -/
  | ret (c : Nat)
  /-- `futex_wake` -/
  | wake (c : Nat) (uaddr : UInt64) (count : Nat)

namespace FSys

variable (sp : Spaces) (s : FSys)

def init (mem : FutexWord → UInt32) : FSys := ⟨Sys.boot, mem, fun _ => none, none⟩

/-- A process in `futex_wait` does nothing else, and nothing else sleeps or wakes on the channels of futexes. -/
def allowed (l : Label) : Bool := (match l.actor with
    | some c => ((s.sys.cur c).bind s.waits).isNone
    | none => true) &&
  (match l with
    | .sleep _ id | .sleepInterruptible _ id _ | .wakeupN id _ => !futexChannel id
    | _ => true)

def setWaits (p : Nat) (x : Option FutexWord) : FSys := { s with waits := update s.waits p x }

/-- A step of the scheduler. -/
def does (l : Label) : Option FSys :=
  if s.sys.enabled l then (s.sys.exec l).map fun t => { s with sys := t } else none

/-- `process_wakeup_n` in `futex_wake`, and what it returns. -/
def wakeWord (key : Int) (count : Nat) : Option (Nat × FSys) :=
  (s.sys.toSched.wakeupN key count).map fun r => (r.2, { s with sys := { s.sys with toSched := r.1 } })

/-- `futex_wake` of process `p` -/
def futexWake (p : Nat) (uaddr : UInt64) (count : Nat) : Option (Except FutexErr Nat × FSys) :=
  match futexKey sp (sp.vm p) uaddr with
  | .error e => some (.error e, s)
  | .ok key => (s.wakeWord key count).map fun r => (.ok r.1, r.2)

def exec : FLabel → Option FSys
  | .sys l => if s.allowed l then s.does l else none
  | .store w x => some { s with mem := update s.mem w x }
  | .wait c uaddr expected => do
    let p ← s.sys.caller c
    if s.waits p = none ∧ s.holder = none then
      match futexKey sp (sp.vm p) uaddr with
      | .error _ => some s
      | .ok _ =>
        let w := sp.word (sp.vm p) uaddr
        -- `-EAGAIN`
        if s.mem w ≠ expected then some s
        else do
          let t ← s.does (.assign p { (s.sys.procs p).flags with timedOut := false, interruptible := true })
          some { t.setWaits p (some w) with holder := some p }
    else none
  | .fall c => do
    let p ← s.sys.caller c
    let w ← s.waits p
    if s.holder = some p then do
      let t ← s.does (.sleepInterruptible c w.key none)
      some { t with holder := none }
    else none
  | .ret c => do
    let p ← s.sys.caller c
    if s.holder = some p ∨ s.waits p = none then none
    else do
      let t ← s.does (.assign p { (s.sys.procs p).flags with interruptible := false })
      some (t.setWaits p none)
  | .wake c uaddr count => do
    let p ← s.sys.caller c
    if s.waits p = none ∧ s.holder = none then (s.futexWake sp p uaddr count).map Prod.snd else none

def system : LTS FSys FLabel := LTS.ofOption (fun s => ∃ mem, s = init mem) (exec sp)

/-- The processes asleep in `futex_wait` of a word. -/
def waiting (w : FutexWord) : List Nat := s.sys.waiting.inorder.filter fun p => s.waits p = some w

/-- No other word that is waited for has the channel of `w`. -/
def Apart (w : FutexWord) : Prop := ∀ p w', s.waits p = some w' → w'.key = w.key → w' = w

/-- The process on CPU `c` and its word at `uaddr`. -/
def wordAt (c : Nat) (uaddr : UInt64) : Option FutexWord := (s.sys.caller c).map fun p => sp.word (sp.vm p) uaddr

/-- Processes are created one at a time, and a word has its channel for itself. -/
def Separate : FLabel → Prop
  | .sys l => s.sys.undisturbed l = true
  | .wait c uaddr _ | .wake c uaddr _ => ∀ w, s.wordAt sp c uaddr = some w → s.Apart w
  | _ => True

def separateRuns : LTS FSys FLabel := (system sp).restrict (Separate sp)

end FSys

/-! ## Who sleeps where -/

/-- A process that sleeps after a step slept before on the same channel, or the step has put it there. -/
lemma Sys.Good.sleeps_on {s s' : Sys} {l : Label} {q : Nat} (h : s.Good) (he : s.enabled l = true)
    (hok : s.undisturbed l = true) (hx : s.exec l = some s') (hq : (s'.procs q).state = .sleeping) :
    (s.procs q).state = .sleeping ∧ (s'.procs q).waitId = (s.procs q).waitId ∨
    ∃ c id, s.cur c = some q ∧ (l = .sleep c id ∨ ∃ n, l = .sleepInterruptible c id n) ∧ (s'.procs q).waitId = id := by
  obtain ⟨t, ht, hst⟩ := h.step he hok
  rw [hx] at ht
  cases ht
  by_cases hs : (s.procs q).state = .sleeping
  · exact .inl ⟨hs, hst.same_channel h hs hq⟩
  obtain ⟨c, hc, hl⟩ := (hst.falls_asleep h hq).resolve_left hs
  -- the caller is on its CPU, so that the section below it is entered
  have henter : ∀ id t, s.toSched.sleepOn c q id = some t → s' = { s with toSched := t } → (s'.procs q).waitId = id := by
    intro id t ht hs'
    have hidle : ¬ s.IsIdle q := by
      have hcall : (s.caller c).isSome = true := by
        rcases hl with ⟨i, rfl⟩ | ⟨i, n, rfl⟩ <;> exact he
      obtain ⟨p, hp, hnot⟩ := h.caller hcall
      rw [hc] at hp
      cases hp
      exact hnot
    obtain ⟨u, hu, -, hf⟩ := h.inv.sleepOn hc hidle id
    rw [ht] at hu
    cases hu
    subst hs'
    exact hf.self.2.1
  rcases hl with ⟨id, rfl⟩ | ⟨id, n, rfl⟩
  · refine .inr ⟨c, id, hc, .inl rfl, ?_⟩
    simp only [Sys.exec, Sched.sleep, hc] at hx
    obtain ⟨t, ht, he⟩ := map_eq_some_iff.1 hx
    exact henter id t ht he.symm
  refine .inr ⟨c, id, hc, .inr ⟨n, rfl⟩, ?_⟩
  simp only [Sys.exec, Sched.sleepInterruptible, hc, bind_eq_bind, bind_some] at hx
  obtain ⟨t, ht, he⟩ := map_eq_some_iff.1 hx
  split at ht
  · cases ht
    rw [← he] at hq
    exact absurd hq hs
  · exact henter id t ht he.symm

lemma key_channel (w : FutexWord) : futexChannel w.key = true := by
  have h1 : (waitChannelFutex ||| (w.id &&& 0x0FFFFFFF)).toNat = 0x10000000 + w.id.toNat % 2 ^ 28 := by
    rw [UInt64.toNat_or, UInt64.toNat_and]
    have hm : w.id.toNat &&& (0x0FFFFFFF : UInt64).toNat = w.id.toNat % 2 ^ 28 := Nat.and_two_pow_sub_one_eq_mod _ 28
    rw [hm]
    have hlt : w.id.toNat % 2 ^ 28 < 2 ^ 28 := Nat.mod_lt _ (by decide)
    exact (Nat.two_pow_add_eq_or_of_lt hlt 1).symm
  unfold futexChannel FutexWord.key
  simp only [Bool.and_eq_true, decide_eq_true_eq]
  omega

namespace FSys

variable {sp : Spaces} {s t : FSys} {l : Label} {c p q : Nat} {w w' : FutexWord} {uaddr : UInt64}

structure Inv (s : FSys) : Prop where
  good : s.sys.Good
  /-- a sleeper on a channel of futexes is in `futex_wait` -/
  asleep : ∀ p, (s.sys.procs p).state = .sleeping → futexChannel (s.sys.procs p).waitId = true → ∃ w, s.waits p = some w
  channel : ∀ p w, s.waits p = some w → (s.sys.procs p).state = .sleeping → (s.sys.procs p).waitId = w.key
  apart : ∀ p w, s.waits p = some w → s.Apart w
  holder : ∀ p, s.holder = some p → s.waits p ≠ none ∧ (s.sys.procs p).state ≠ .sleeping

lemma init_inv (mem : FutexWord → UInt32) : (init mem).Inv where
  good := Sys.boot_good
  asleep p h _ := by
    have : (Sys.boot.procs p).state ≠ .sleeping := by
      by_cases hp : p = 0
      · subst hp
        decide
      simp only [Sys.boot, update_of_ne hp]
      decide
    exact absurd h this
  channel _ _ h := nomatch h
  apart _ _ h := nomatch h
  holder _ h := nomatch h

lemma does_spec (hg : s.sys.Good) (hok : s.sys.undisturbed l = true) (h : s.does l = some t) :
    ∃ sys', s.sys.enabled l = true ∧ s.sys.exec l = some sys' ∧ t = { s with sys := sys' } ∧ sys'.Good := by
  unfold does at h
  split at h
  · rename_i he
    obtain ⟨sys', hx, hst⟩ := hg.step he hok
    rw [hx] at h
    cases h
    exact ⟨sys', he, hx, rfl, hst.good⟩
  · cases h

/-- A step of the scheduler that puts nobody to sleep on a channel of futexes, and no one who waits to sleep. -/
lemma Inv.sched {sys' : Sys} (h : Inv s) (he : s.sys.enabled l = true) (hok : s.sys.undisturbed l = true)
    (hx : s.sys.exec l = some sys') (hg : sys'.Good)
    (hsl : ∀ c id q, s.sys.cur c = some q → (l = .sleep c id ∨ ∃ n, l = .sleepInterruptible c id n) →
      futexChannel id = false ∧ s.waits q = none) : Inv { s with sys := sys' } where
  good := hg
  asleep q hq hf := by
    rcases h.good.sleeps_on he hok hx hq with ⟨h1, h2⟩ | ⟨c, id, hc, hl, hid⟩
    · exact h.asleep q h1 (h2 ▸ hf)
    rw [hid, (hsl c id q hc hl).1] at hf
    cases hf
  channel q w hw hq := by
    rcases h.good.sleeps_on he hok hx hq with ⟨h1, h2⟩ | ⟨c, id, hc, hl, hid⟩
    · exact h2.trans (h.channel q w hw h1)
    rw [(hsl c id q hc hl).2] at hw
    cases hw
  apart := h.apart
  holder q hq := by
    obtain ⟨h1, h2⟩ := h.holder q hq
    refine ⟨h1, fun hs => ?_⟩
    rcases h.good.sleeps_on he hok hx hs with ⟨h3, -⟩ | ⟨c, id, hc, hl, -⟩
    · exact h2 h3
    · exact h1 (hsl c id q hc hl).2

lemma step_sys (h : Inv s) (hok : s.sys.undisturbed l = true) (hd : s.exec sp (.sys l) = some t) : Inv t := by
  have hd : (if s.allowed l then s.does l else none) = some t := hd
  split at hd
  · rename_i ha
    obtain ⟨sys', he, hx, rfl, hg⟩ := does_spec h.good hok hd
    unfold allowed at ha
    rw [Bool.and_eq_true] at ha
    refine h.sched he hok hx hg fun c id q hc hl => ?_
    have hact : l.actor = some c := by
      rcases hl with rfl | ⟨n, rfl⟩ <;> rfl
    simp only [hact, hc] at ha
    constructor
    · rcases hl with rfl | ⟨n, rfl⟩ <;> simpa using ha.2
    · simpa using ha.1
  · cases hd

/-- A write to the flags of a process changes nothing of this. -/
lemma Inv.assign {f : Flags} (h : Inv s) (hd : s.does (.assign p f) = some t) : Inv t ∧ t.waits = s.waits ∧
    t.holder = s.holder ∧ t.mem = s.mem ∧ ∀ q, (t.sys.procs q).state = (s.sys.procs q).state := by
  obtain ⟨sys', he, hx, rfl, hg⟩ := does_spec h.good rfl hd
  refine ⟨h.sched he rfl hx hg ?_, rfl, rfl, rfl, fun q => ?_⟩
  · rintro c id q - (hl | ⟨n, hl⟩) <;> cases hl
  cases hx
  by_cases hq : q = p
  · subst hq
    simp
  · rw [Sched.setProc_ne _ hq]

lemma setWaits_same (x : Option FutexWord) : (s.setWaits p x).waits p = x := update_self ..

lemma setWaits_ne (x : Option FutexWord) (h : q ≠ p) : (s.setWaits p x).waits q = s.waits q := update_of_ne h ..

lemma setWaits_eq_some {x : Option FutexWord} (h : (s.setWaits p x).waits q = some w) :
    q = p ∧ x = some w ∨ q ≠ p ∧ s.waits q = some w := by
  by_cases hq : q = p
  · subst hq
    exact .inl ⟨rfl, (setWaits_same x).symm.trans h⟩
  · exact .inr ⟨hq, (setWaits_ne x hq).symm.trans h⟩

/-- A process that is awake changes what it waits for. -/
lemma Inv.setWaits (h : Inv s) (hp : (s.sys.procs p).state ≠ .sleeping) (x : Option FutexWord) (o : Option Nat)
    (hx : ∀ w, x = some w → s.Apart w)
    (ho : ∀ q, o = some q → q = p ∧ x ≠ none ∨ q ≠ p ∧ s.holder = some q) :
    Inv { s.setWaits p x with holder := o } := by
  have hne : ∀ {q}, (s.sys.procs q).state = .sleeping → q ≠ p := by
    rintro q hq rfl
    exact hp hq
  exact {
    good := h.good
    asleep := fun q hq hf => by
      obtain ⟨w, hw⟩ := h.asleep q hq hf
      exact ⟨w, (setWaits_ne _ (hne hq)).trans hw⟩
    channel := fun q w hq hs => h.channel q w ((setWaits_ne _ (hne hs)).symm.trans hq) hs
    apart := fun q w hq r w' hr hk => by
      rcases setWaits_eq_some hq with ⟨-, hq⟩ | ⟨-, hq⟩
      · rcases setWaits_eq_some hr with ⟨-, hr⟩ | ⟨-, hr⟩
        · exact Option.some.inj (hr.symm.trans hq)
        · exact hx w hq r w' hr hk
      rcases setWaits_eq_some hr with ⟨-, hr⟩ | ⟨-, hr⟩
      · exact (hx w' hr q w hq hk.symm).symm
      · exact h.apart q w hq r w' hr hk
    holder := fun q hq => by
      rcases ho q hq with ⟨rfl, hn⟩ | ⟨hqp, hq⟩
      · exact ⟨fun hn' => hn ((setWaits_same x).symm.trans hn'), hp⟩
      · exact ⟨fun hn => (h.holder q hq).1 ((setWaits_ne x hqp).symm.trans hn), (h.holder q hq).2⟩ }

lemma caller_cur (h : s.sys.caller c = some p) : s.sys.cur c = some p := (filter_eq_some_iff.1 h).1

lemma Inv.caller_state (h : Inv s) (hc : s.sys.caller c = some p) : (s.sys.procs p).state = .running :=
  (h.good.inv.running c p (by simp) (caller_cur hc)).1

lemma step_wait {expected : UInt32} (h : Inv s) (hsep : Separate sp s (.wait c uaddr expected))
    (hd : s.exec sp (.wait c uaddr expected) = some t) : Inv t := by
  obtain ⟨p, hp, hd⟩ := bind_eq_some_iff.1 hd
  have hapart : s.Apart (sp.word (sp.vm p) uaddr) := hsep _ (by rw [wordAt, hp]; rfl)
  split at hd
  swap
  · cases hd
  split at hd
  · cases hd
    exact h
  dsimp only at hd
  split at hd
  · cases hd
    exact h
  obtain ⟨u, hu, hd⟩ := bind_eq_some_iff.1 hd
  cases hd
  obtain ⟨hi, hw, -, -, hst⟩ := h.assign hu
  refine hi.setWaits ?_ _ _ ?_ fun q hq => .inl ⟨(Option.some.inj hq).symm, by simp⟩
  · rw [hst p, h.caller_state hp]
    simp
  rintro _ ⟨⟩
  unfold Apart
  rw [hw]
  exact hapart

/-- The waiter goes to sleep on the channel of its word, or a signal keeps it awake. -/
lemma step_fall (h : Inv s) (hd : s.exec sp (.fall c) = some t) : Inv t := by
  obtain ⟨p, hp, hd⟩ := bind_eq_some_iff.1 hd
  obtain ⟨w, hw, hd⟩ := bind_eq_some_iff.1 hd
  split at hd
  swap
  · cases hd
  obtain ⟨u, hu, hd⟩ := bind_eq_some_iff.1 hd
  cases hd
  obtain ⟨sys', he, hx, rfl, hg⟩ := does_spec h.good rfl hu
  have hslept : ∀ q, (sys'.procs q).state = .sleeping →
      (s.sys.procs q).state = .sleeping ∧ (sys'.procs q).waitId = (s.sys.procs q).waitId ∨
      q = p ∧ (sys'.procs q).waitId = w.key := by
    intro q hq
    rcases h.good.sleeps_on he rfl hx hq with h1 | ⟨d, id, hd, hl, hid⟩
    · exact .inl h1
    rcases hl with hl | ⟨n, hl⟩
    · cases hl
    cases hl
    rw [caller_cur hp] at hd
    cases hd
    exact .inr ⟨rfl, hid⟩
  exact {
    good := hg
    asleep := fun q hq hf => by
      rcases hslept q hq with ⟨h1, h2⟩ | ⟨rfl, -⟩
      · exact h.asleep q h1 (h2 ▸ hf)
      · exact ⟨w, hw⟩
    channel := fun q w' hq hs => by
      rcases hslept q hs with ⟨h1, h2⟩ | ⟨rfl, h2⟩
      · exact h2.trans (h.channel q w' hq h1)
      obtain rfl : w = w' := Option.some.inj (hw.symm.trans hq)
      exact h2
    apart := h.apart
    holder := fun _ hq => nomatch hq }

lemma step_ret (h : Inv s) (hd : s.exec sp (.ret c) = some t) : Inv t := by
  obtain ⟨p, hp, hd⟩ := bind_eq_some_iff.1 hd
  split at hd
  · cases hd
  rename_i hno
  obtain ⟨u, hu, hd⟩ := bind_eq_some_iff.1 hd
  cases hd
  obtain ⟨hi, hw, hh, -, hst⟩ := h.assign hu
  refine hi.setWaits ?_ none u.holder nofun fun q hq => .inr ⟨?_, hq⟩
  · rw [hst p, h.caller_state hp]
    simp
  rintro rfl
  exact hno (.inl (hh ▸ hq))

/-- The sleepers on the channel of a word that has it for itself are those that wait for it. -/
lemma Inv.sleepersOn_key (h : Inv s) (ha : s.Apart w) : s.sys.sleepersOn w.key = s.waiting w := by
  refine filter_congr fun q hq => ?_
  have hsl := ((h.good.inv.waitingIff q).1 hq).1
  rw [Bool.eq_iff_iff, decide_eq_true_eq, decide_eq_true_eq]
  constructor
  · intro hid
    obtain ⟨w', hw'⟩ := h.asleep q hsl (hid ▸ key_channel w)
    rw [hw', ha q w' hw' ((h.channel q w' hw' hsl).symm.trans hid)]
  · exact fun hw => h.channel q w hw hsl

/-- `futex_wake` of a word that has its channel for itself. -/
lemma Inv.futexWake (h : Inv s) {k : Int} (hk : futexKey sp (sp.vm p) uaddr = .ok k)
    (ha : s.Apart (sp.word (sp.vm p) uaddr)) (count : Nat) :
    ∃ t, s.futexWake sp p uaddr count = some (.ok (min count (s.waiting (sp.word (sp.vm p) uaddr)).length),
        { s with sys := { s.sys with toSched := t } }) ∧
      s.sys.Woken t ((s.waiting (sp.word (sp.vm p) uaddr)).take count) ∧ t.Inv none s.sys.freed none := by
  have hkey : k = (sp.word (sp.vm p) uaddr).key := by
    unfold futexKey at hk
    split at hk
    · cases hk
    split at hk
    · cases hk
    · exact (Except.ok.inj hk).symm
  obtain ⟨t, ht, hw, hi⟩ := h.good.inv.wakeupN k count
  have hq : Sched.Inv.quota (count : Int) (s.sys.sleepersOn k) = (s.waiting (sp.word (sp.vm p) uaddr)).take count := by
    rw [hkey, h.sleepersOn_key ha, Sched.Inv.quota, if_neg (by omega), Int.toNat_natCast]
  rw [hq] at ht hw
  refine ⟨t, ?_, hw, hi⟩
  unfold FSys.futexWake wakeWord
  rw [hk]
  simp only [ht, map_some, length_take]

lemma step_wake {count : Nat} (h : Inv s) (hsep : Separate sp s (.wake c uaddr count))
    (hd : s.exec sp (.wake c uaddr count) = some t) : Inv t := by
  obtain ⟨p, hp, hd⟩ := bind_eq_some_iff.1 hd
  have hapart : s.Apart (sp.word (sp.vm p) uaddr) := hsep _ (by rw [wordAt, hp]; rfl)
  split at hd
  swap
  · cases hd
  cases hk : futexKey sp (sp.vm p) uaddr with
  | error e =>
    rw [FSys.futexWake, hk] at hd
    cases hd
    exact h
  | ok k =>
    obtain ⟨u, hu, hw, hi⟩ := h.futexWake hk hapart count
    rw [hu] at hd
    cases hd
    have hst : ∀ q, (u.procs q).state = .sleeping → (s.sys.procs q).state = .sleeping ∧
        (u.procs q).waitId = (s.sys.procs q).waitId := by
      intro q hq
      refine ⟨?_, hw.waitId q⟩
      rw [hw.procs q] at hq
      split at hq
      · cases hq
      · exact hq
    have hsl : ∀ q ∈ (s.waiting (sp.word (sp.vm p) uaddr)).take count, (s.sys.procs q).state = .sleeping := by
      intro q hq
      exact ((h.good.inv.waitingIff q).1 (mem_filter.1 (mem_of_mem_take hq)).1).1
    exact {
      good := (h.good.woken (l := .wakeupN k count) hi hw hsl).good
      asleep := fun q hq hf => h.asleep q (hst q hq).1 ((hst q hq).2 ▸ hf)
      channel := fun q w hq hs => (hst q hs).2.trans (h.channel q w hq (hst q hs).1)
      apart := h.apart
      holder := fun q hq => ⟨(h.holder q hq).1, fun hs => (h.holder q hq).2 (hst q hs).1⟩ }

lemma reachable_inv (h : (separateRuns sp).Reachable s) : Inv s := by
  refine LTS.Inductive.reachable ⟨?_, ?_⟩ h
  · rintro s ⟨mem, rfl⟩
    exact init_inv mem
  rintro s l t hi ⟨hsep, hstep⟩
  have hd : s.exec sp l = some t := hstep
  cases l with
  | sys l => exact step_sys hi hsep hd
  | store w x =>
    cases hd
    exact ⟨hi.good, hi.asleep, hi.channel, hi.apart, hi.holder⟩
  | wait c uaddr expected => exact step_wait hi hsep hd
  | fall c => exact step_fall hi hd
  | ret c => exact step_ret hi hd
  | wake c uaddr count => exact step_wake hi hsep hd

/-- In every state of these runs `futex_wake` makes ready exactly as many processes as it is told to, or all that there
are, each of them asleep in `futex_wait` of its word; and no process that has compared the word before is left asleep by
a call that may wake as many as wait. -/
theorem futex_wake_exact (h : (separateRuns sp).Reachable s) {k : Int} (count : Nat)
    (hp : s.sys.caller c = some p) (hlock : s.holder = none) (hk : futexKey sp (sp.vm p) uaddr = .ok k)
    (hsep : Separate sp s (.wake c uaddr count)) :
    ∃ t ws, s.futexWake sp p uaddr count = some (.ok ws.length, t) ∧ s.sys.Woken t.sys.toSched ws ∧ ws.Nodup ∧
      ws.length = min count (s.waiting (sp.word (sp.vm p) uaddr)).length ∧
      (∀ q ∈ ws, (s.sys.procs q).state = .sleeping ∧ s.waits q = some (sp.word (sp.vm p) uaddr)) ∧
      ((s.waiting (sp.word (sp.vm p) uaddr)).length ≤ count → ∀ q,
        s.waits q = some (sp.word (sp.vm p) uaddr) → t.holder ≠ some q ∧ (t.sys.procs q).state ≠ .sleeping) := by
  have hi := reachable_inv h
  have hapart : s.Apart (sp.word (sp.vm p) uaddr) := hsep _ (by rw [wordAt, hp]; rfl)
  obtain ⟨t, ht, hw, -⟩ := hi.futexWake hk hapart count
  refine ⟨{ s with sys := { s.sys with toSched := t } }, _, ?_, hw, ?_, ?_, fun q hq => ?_,
    fun hall q hq => ⟨?_, fun hs => ?_⟩⟩
  · rw [ht, length_take]
  · exact (hi.good.inv.waitingNodup.filter _).sublist (take_sublist _ _)
  · rw [length_take]
  · obtain ⟨hm, hq'⟩ := mem_filter.1 (mem_of_mem_take hq)
    exact ⟨((hi.good.inv.waitingIff q).1 hm).1, of_decide_eq_true hq'⟩
  · rw [hlock]
    simp
  -- all that wait are among those that are woken
  have hs' : (t.procs q).state = .sleeping := hs
  rw [take_of_length_le hall] at hw
  rw [hw.procs q] at hs'
  split at hs'
  · cases hs'
  rename_i hnot
  exact hnot (mem_filter.2 ⟨(hi.good.inv.waitingIff q).2 ⟨hs', by simp⟩, by simpa using hq⟩)

/-! ## Runs -/

lemma does_waits (h : s.does l = some t) : t.waits = s.waits := by
  unfold does at h
  split at h
  · obtain ⟨x, -, rfl⟩ := map_eq_some_iff.1 h
    rfl
  · cases h

/-- Steps of the scheduler change no word that is waited for. -/
lemma sys_run {ls : List Label}
    (h : ls.foldlM (fun (s : FSys) l => if s.sys.undisturbed l then s.exec sp (.sys l) else none) s = some t) :
    (separateRuns sp).Run s (ls.map .sys) t ∧ t.waits = s.waits := by
  induction ls generalizing s with
  | nil =>
    cases h
    exact ⟨.nil _, rfl⟩
  | cons l ls ih =>
    obtain ⟨u, hu, h⟩ := bind_eq_some_iff.1 h
    dsimp only at hu
    split at hu
    · rename_i hl
      obtain ⟨hrun, hw⟩ := ih h
      have hd : (if s.allowed l then s.does l else none) = some u := hu
      split at hd
      · exact ⟨.cons ⟨hl, hu⟩ hrun, hw.trans (does_waits hd)⟩
      · cases hd
    · cases hu

/-- One address space, at 0x8000, with private areas only. -/
def oneSpace : Spaces := ⟨fun _ => 0x8000, fun _ _ => true, fun _ _ => false, fun _ a => a⟩

/-- Processes 1 and 2 are made, and process 1 runs. -/
def twoMade : List Label := [.pick 0, .claim 0, .publish 0, .pick 0, .claim 0, .publish 0, .yield 0]

theorem futex_wake_exact_oneWaiter : ∃ s t, (separateRuns oneSpace).Reachable s ∧
    s.futexWake oneSpace 2 0x1000 5 = some (.ok 1, t) ∧ s.sys.Woken t.sys.toSched [1] := by
  -- process 1 waits for the word at 0x1000, then process 2 runs
  have h : (((twoMade.foldlM (fun (s : FSys) l => if s.sys.undisturbed l then s.exec oneSpace (.sys l) else none)
      (init fun _ => 0)).bind fun u => u.exec oneSpace (.wait 0 0x1000 0)).bind fun v => v.exec oneSpace (.fall 0)).map
        (fun s => (s.sys.caller 0, s.holder, s.waiting (.own 0x8000 0x1000), s.waits 1)) =
      some (some 2, none, [1], some (.own 0x8000 0x1000)) := by decide +kernel
  obtain ⟨s, hs, he⟩ := map_eq_some_iff.1 h
  obtain ⟨v, hv, hs⟩ := bind_eq_some_iff.1 hs
  obtain ⟨u, hu, hv⟩ := bind_eq_some_iff.1 hv
  simp only [Prod.mk.injEq] at he
  obtain ⟨hc, hh, hw, hw1⟩ := he
  obtain ⟨hrun, hnone⟩ := sys_run hu
  have hr : (separateRuns oneSpace).Reachable s := by
    have hfall : (separateRuns oneSpace).step v (.fall 0) s := ⟨trivial, hs⟩
    refine LTS.Reachable.run ⟨_, _, ⟨_, rfl⟩, hrun⟩ (.cons ⟨fun w _ p x hx => ?_, hv⟩ (.cons hfall (.nil s)))
    rw [hnone] at hx
    cases hx
  have hsep : Separate oneSpace s (.wake 0 0x1000 5) := by
    intro w hx
    rw [wordAt, hc] at hx
    cases hx
    exact (reachable_inv hr).apart 1 _ hw1
  obtain ⟨t, ws, h1, h2, -, h4, h5, -⟩ := futex_wake_exact hr (k := 0x10001400) 5 hc hh (by decide) hsep
  have hw' : s.waiting (oneSpace.word (oneSpace.vm 2) 0x1000) = [1] := hw
  rw [hw'] at h4
  obtain ⟨q, rfl⟩ : ∃ q, ws = [q] := length_eq_one_iff.1 (by simpa using h4)
  have hq : q ∈ s.waiting (oneSpace.word (oneSpace.vm 2) 0x1000) :=
    mem_filter.2 ⟨((reachable_inv hr).good.inv.waitingIff q).2 ⟨(h5 q (by simp)).1, by simp⟩,
      by simpa using (h5 q (by simp)).2⟩
  rw [hw', mem_singleton] at hq
  subst hq
  exact ⟨s, t, hr, h1, h2⟩

/-- Process 1 waits for the word at 0x40001000, process 2 for the one at 0x1000, and process 3 runs. -/
def twoWords : List FLabel :=
  [.sys (.pick 0), .sys (.claim 0), .sys (.publish 0), .sys (.pick 0), .sys (.claim 0), .sys (.publish 0),
    .sys (.pick 0), .sys (.claim 0), .sys (.publish 0), .sys (.yield 0), .wait 0 0x40001000 0, .fall 0,
    .wait 0 0x1000 0, .fall 0]

/-- `futex_wake` of one word wakes the process that waits for the other, and leaves its own waiter asleep. -/
theorem wrong_waiter_woken : ∃ s t, (system oneSpace).Reachable s ∧ s.futexWake oneSpace 3 0x1000 1 = some (.ok 1, t) ∧
    s.waits 1 = some (.own 0x8000 0x40001000) ∧ (s.sys.procs 1).state = .sleeping ∧ (t.sys.procs 1).state = .ready ∧
    s.waits 2 = some (.own 0x8000 0x1000) ∧ (s.sys.procs 2).state = .sleeping ∧ (t.sys.procs 2).state = .sleeping := by
  have h : ((twoWords.foldlM (exec oneSpace) (init fun _ => 0)).bind fun s =>
      (s.futexWake oneSpace 3 0x1000 1).map fun r => (r.1.toOption, [s.waits 1, s.waits 2],
        [(s.sys.procs 1).state, (r.2.sys.procs 1).state, (s.sys.procs 2).state, (r.2.sys.procs 2).state])) =
      some (some 1, [some (.own 0x8000 0x40001000), some (.own 0x8000 0x1000)],
        [.sleeping, .ready, .sleeping, .sleeping]) := by decide +kernel
  obtain ⟨s, hrun, he⟩ := bind_eq_some_iff.1 h
  obtain ⟨⟨r, t⟩, hw, he⟩ := map_eq_some_iff.1 he
  simp only [Prod.mk.injEq, List.cons.injEq, and_true] at he
  obtain ⟨h0, ⟨h1, h4⟩, h2, h3, h5, h6⟩ := he
  cases r with
  | error e => cases h0
  | ok n =>
    obtain rfl : n = 1 := Option.some.inj h0
    exact ⟨s, t, ⟨_, _, ⟨_, rfl⟩, LTS.run_ofOption hrun⟩, hw, h1, h2, h3, h4, h5, h6⟩

end FSys

end Hermes.L5
