import Hermes.Core.LTS

/-!
# Epoll sets

The entries of an epoll set and the scan of `drivers/syscalls/sys_epoll.c`. An edge-triggered entry remembers in
`reported` what its file was ready for when it was last examined. A file that stops being ready and is ready again
between two scans looks to it as one that stayed ready, and the new edge is lost.
-/
namespace Hermes.L6

open List Option

abbrev pollIn : UInt32 := 0x001
abbrev pollErr : UInt32 := 0x008
abbrev pollHup : UInt32 := 0x010
abbrev epollRdhup : UInt32 := 0x2000
abbrev epollExclusive : UInt32 := 0x10000000
abbrev epollOneshot : UInt32 := 0x40000000
abbrev epollEt : UInt32 := 0x80000000
/-- `EPOLL_FLAGS` -/
abbrev epollFlags : UInt32 := 0xF0000000

/-- `struct epoll_entry`. A file is known by its address. -/
structure EpollEntry where
  fd : Nat
  file : Nat
  events : UInt32
  data : UInt64
  reported : UInt32
  disabled : Bool
deriving DecidableEq

/-- `struct epoll_event_k` -/
structure EpollEvent where
  events : UInt32
  data : UInt64
deriving DecidableEq

/-- What `poll_file` returns, with the event that a hang-up implies. -/
def polledEvents (polled : UInt32) : UInt32 := polled ||| if polled &&& pollHup ≠ 0 then epollRdhup else 0

namespace EpollEntry

variable (e : EpollEntry)

/-- The events an entry can be ready for. -/
def wanted : UInt32 := (e.events ||| pollErr ||| pollHup) &&& ~~~epollFlags

/-- `entry_ready`, of what `poll_file` returns -/
def ready (polled : UInt32) : UInt32 := polledEvents polled &&& e.wanted

/-- What is reported of an entry that is ready for `r`. -/
def report (r : UInt32) : UInt32 :=
  if e.events &&& epollEt ≠ 0 then (if r &&& ~~~e.reported ≠ 0 then r else 0) else r

/-- The entry after a scan that consumes has found it ready for `r`. -/
def examined (r : UInt32) : EpollEntry := { e with
    reported := if e.events &&& epollEt ≠ 0 then r else e.reported
    disabled := e.disabled || (e.report r ≠ 0 && e.events &&& epollOneshot ≠ 0) }

/-- One turn of the loop of `epoll_collect_locked`: the event it reports, and the entry it leaves in the list. `live` says
that the descriptor still has the file. -/
def visit (live : Bool) (polled : UInt32) (consume : Bool) : Option EpollEvent × Option EpollEntry :=
  if live = false then (none, if consume then none else some e)
  else if e.disabled then (none, some e)
  else
    (if e.report (e.ready polled) = 0 then none else some ⟨e.report (e.ready polled), e.data⟩,
      some (if consume then e.examined (e.ready polled) else e))

end EpollEntry

/-- `epoll_find` -/
def epollFind (es : List EpollEntry) (fd file : Nat) : Option EpollEntry := es.find? fun e => e.fd = fd && e.file = file

/-- `op` of `sys_epoll_ctl` -/
inductive CtlOp
  | add
  | del
  | mod
deriving DecidableEq

/-- What `sys_epoll_ctl` does to the list, once a loop is excluded. -/
def epollCtl (es : List EpollEntry) (op : CtlOp) (fd file : Nat) (events : UInt32) (data : UInt64) : List EpollEntry :=
  match op, epollFind es fd file with
  | .add, none => es ++ [⟨fd, file, events, data, 0, false⟩]
  | .add, some _ => es
  | .mod, none => es
  | .mod, some e =>
    if events &&& epollExclusive ≠ 0 ∨ e.events &&& epollExclusive ≠ 0 then es
    else es.map fun e =>
      if e.fd = fd ∧ e.file = file then { e with events := events, data := data, reported := 0, disabled := false } else e
  | .del, _ => es.filter fun e => ¬ (e.fd = fd ∧ e.file = file)

/-! ## A set that is scanned while its files change -/

/-- A scan of `epoll_wait` that is under way. -/
structure EpollScan where
  pid : Nat
  max : Nat
  out : List EpollEvent
deriving DecidableEq

structure EpollSet where
  /-- the entries the scan has examined -/
  before : List EpollEntry
  /-- and those it has not -/
  rest : List EpollEntry
  scan : Option EpollScan
  /-- the descriptor table of each process -/
  table : Nat → Nat → Option Nat
  /-- what `poll_file` returns of a file -/
  polled : Nat → UInt32
  /-- the events for which the watched file has become ready since the watched entry was last reported -/
  edges : UInt32

inductive SetLabel
  /-- from now on `poll_file` of the file returns this -/
  | ready (file : Nat) (polled : UInt32)
  /-- a process opens, closes or replaces a descriptor -/
  | install (pid fd : Nat) (file : Option Nat)
  | ctl (pid : Nat) (op : CtlOp) (fd : Nat) (events : UInt32) (data : UInt64)
  /-- a scan of `epoll_wait` takes the lock of the set -/
  | start (pid max : Nat)
  /-- it examines the next entry -/
  | examine
  /-- it is done -/
  | finish

/-- The watched entry is the one with this descriptor and file. -/
structure Watch where
  fd : Nat
  file : Nat

def Watch.is (w : Watch) (e : EpollEntry) : Bool := e.fd = w.fd && e.file = w.file

namespace EpollSet

variable (s : EpollSet)

def entries : List EpollEntry := s.before ++ s.rest

/-- The events for which a file becomes ready when `poll_file` returns `polled` from now on. -/
def rising (file : Nat) (polled : UInt32) : UInt32 := polledEvents polled &&& ~~~polledEvents (s.polled file)

def setReady (w : Watch) (file : Nat) (polled : UInt32) : EpollSet := { s with
    polled := fun g => if g = file then polled else s.polled g
    edges := if file = w.file then s.edges ||| s.rising file polled else s.edges }

/-- The turn of the scan for the entry `e`, the rest of the list being `rest`. -/
def examine (w : Watch) (c : EpollScan) (e : EpollEntry) (rest : List EpollEntry) : EpollSet :=
  let v := e.visit (s.table c.pid e.fd = some e.file) (s.polled e.file) true
  { s with
    before := s.before ++ v.2.toList
    rest := rest
    scan := some { c with out := c.out ++ v.1.toList }
    edges := if w.is e ∧ v.1.isSome then 0 else s.edges }

/-- One step, with the edges of the watched entry counted. `sys_epoll_ctl` waits while a scan has the lock. -/
def exec (w : Watch) : SetLabel → Option EpollSet
  | .ready file polled => some (s.setReady w file polled)
  | .install pid fd file =>
    some { s with table := fun p d => if p = pid ∧ d = fd then file else s.table p d }
  | .ctl pid op fd events data =>
    match s.scan, s.table pid fd with
    | none, some file => some { s with rest := epollCtl s.rest op fd file events data }
    | _, _ => none
  | .start pid max =>
    match s.scan with
    | none => if 0 < max then some { s with scan := some ⟨pid, max, []⟩ } else none
    | some _ => none
  | .examine =>
    match s.scan, s.rest with
    | some c, e :: rest => if c.out.length < c.max then some (s.examine w c e rest) else none
    | _, _ => none
  | .finish =>
    match s.scan with
    | some c =>
      if s.rest = [] ∨ c.max ≤ c.out.length then some { s with before := [], rest := s.entries, scan := none } else none
    | none => none

/-- The watched entry has just been added: it has reported nothing. -/
def Starts (w : Watch) : Prop :=
  s.before = [] ∧ s.scan = none ∧ s.edges = 0 ∧ ∀ e ∈ s.entries, w.is e = true → e.reported = 0

/-- The watched entry is still in the list after the step. -/
def Stays (w : Watch) (l : SetLabel) : Prop := ∀ t ∈ s.exec w l, ∃ e ∈ t.entries, w.is e = true

instance (w : Watch) (l : SetLabel) : Decidable (s.Stays w l) :=
  match h : s.exec w l with
  | none => isTrue fun t ht => by rw [h] at ht; cases ht
  | some u => decidable_of_iff (∃ e ∈ u.entries, w.is e = true)
      ⟨fun hu t ht => by rw [h] at ht; cases ht; exact hu, fun ht => ht u h⟩

/-- The runs in which the watched entry stays registered. -/
def system (w : Watch) : LTS EpollSet SetLabel :=
  (LTS.ofOption (fun s => s.Starts w) fun s l => s.exec w l).restrict fun s l => s.Stays w l

/-- When the file becomes ready for an event, its entry does not hold that event as reported: it has been examined since
the file ceased to be ready for it. -/
def Examined (w : Watch) (l : SetLabel) : Prop :=
  match l with
  | .ready file polled => file = w.file → ∀ e ∈ s.entries, w.is e = true → s.rising file polled &&& e.reported = 0
  | _ => True

instance (w : Watch) (l : SetLabel) : Decidable (s.Examined w l) :=
  match l with
  | .ready file polled => inferInstanceAs
      (Decidable (file = w.file → ∀ e ∈ s.entries, w.is e = true → s.rising file polled &&& e.reported = 0))
  | .install .. | .ctl .. | .start .. | .examine | .finish => isTrue trivial

/-- The runs in which the watched entry stays registered and no edge follows another unseen. -/
def examinedRuns (w : Watch) : LTS EpollSet SetLabel :=
  (LTS.ofOption (fun s => s.Starts w) fun s l => s.exec w l).restrict fun s l => s.Stays w l ∧ s.Examined w l

end EpollSet

/-! ## No edge is lost while every edge is seen -/

section Bits

variable {x p p' r m : UInt32}

lemma and_eq_zero_iff {a b : UInt32} :
    a &&& b = 0 ↔ ∀ i < 32, a.toBitVec.getLsbD i = true → b.toBitVec.getLsbD i = false := by
  rw [← UInt32.toBitVec_inj]
  constructor
  · intro h i _ ha
    have hi := congrArg (fun v => v.getLsbD i) h
    simpa [ha] using hi
  intro h
  ext i hi
  simpa [hi] using h i hi

/-- What is ready and not fresh has been reported. -/
lemma masked_reported (hr : x &&& p &&& r = 0) (hf : p &&& m &&& ~~~r = 0) : x &&& (p &&& m) = 0 := by
  rw [and_eq_zero_iff] at hr hf ⊢
  intro i hi hx
  have h1 := hr i hi
  have h2 := hf i hi
  simp [hi] at h1 h2 ⊢
  grind

/-- New bits that are not in `r` keep the old bits out of it. -/
lemma risen_reported (hr : x &&& p &&& r = 0) (hn : p' &&& ~~~p &&& r = 0) : (x ||| p' &&& ~~~p) &&& p' &&& r = 0 := by
  rw [and_eq_zero_iff] at hr hn ⊢
  intro i hi
  have h1 := hr i hi
  have h2 := hn i hi
  simp [hi] at h1 h2 ⊢
  grind

end Bits

namespace EpollSet

variable {s t : EpollSet} {w : Watch}

/-- No event that the watched entry holds as reported has an edge that is still ready. -/
def EdgesKept (w : Watch) (s : EpollSet) : Prop :=
  ∀ e ∈ s.entries, w.is e = true → s.edges &&& polledEvents (s.polled w.file) &&& e.reported = 0

variable {file : Nat} {polled : UInt32} {e e' : EpollEntry} {live : Bool}

lemma EdgesKept.setReady (h : s.EdgesKept w) (hx : s.Examined w (.ready file polled)) :
    (s.setReady w file polled).EdgesKept w := by
  intro e he hw
  by_cases hf : file = w.file
  · subst hf
    simp only [EpollSet.setReady]
    exact risen_reported (h e he hw) (hx rfl e he hw)
  · simp only [EpollSet.setReady, if_neg hf, if_neg (Ne.symm hf)]
    exact h e he hw

/-- The entries `sys_epoll_ctl` leaves have been there before, or have reported nothing. -/
lemma mem_epollCtl {es : List EpollEntry} {op : CtlOp} {fd : Nat} {events : UInt32} {data : UInt64}
    (he : e ∈ epollCtl es op fd file events data) : e ∈ es ∨ e.reported = 0 := by
  unfold epollCtl at he
  split at he
  · rcases mem_append.1 he with he | he
    · exact .inl he
    · exact .inr (by rw [mem_singleton.1 he])
  · exact .inl he
  · exact .inl he
  · split at he
    · exact .inl he
    obtain ⟨d, hd, rfl⟩ := mem_map.1 he
    split
    · exact .inr rfl
    · exact .inl hd
  · exact .inl (mem_filter.1 he).1

/-- A turn of the loop keeps the descriptor and the file of the entry. -/
lemma visit_is {ev : Option EpollEvent} (hv : e.visit live polled true = (ev, some e')) : w.is e' = w.is e := by
  unfold EpollEntry.visit at hv
  split at hv
  · cases (Prod.mk.inj hv).2
  split at hv
  · cases (Prod.mk.inj hv).2
    rfl
  cases (Prod.mk.inj hv).2
  rfl

/-- An entry that is examined and not reported remembers nothing that it did not remember before, as far as its file is
ready. -/
lemma visit_quiet {x : UInt32} (hv : e.visit live polled true = (none, some e'))
    (h : x &&& polledEvents polled &&& e.reported = 0) : x &&& polledEvents polled &&& e'.reported = 0 := by
  unfold EpollEntry.visit at hv
  split at hv
  · cases (Prod.mk.inj hv).2
  split at hv
  · cases (Prod.mk.inj hv).2
    exact h
  obtain ⟨h1, h2⟩ := Prod.mk.inj hv
  cases h2
  simp only [if_true, EpollEntry.examined]
  split
  · rename_i het
    have hq : e.ready polled &&& ~~~e.reported = 0 := by
      by_contra hn
      simp only [EpollEntry.report, if_pos het, if_pos hn] at h1
      split at h1
      · rename_i h0
        rw [h0] at hn
        exact hn (UInt32.zero_and)
      · cases h1
    rw [EpollEntry.ready, UInt32.and_assoc, ← UInt32.and_assoc (polledEvents polled), UInt32.and_self]
    exact masked_reported h hq
  · exact h

lemma EdgesKept.examine (h : s.EdgesKept w) {c : EpollScan} {rest : List EpollEntry}
    (hs : s.rest = e :: rest) : (s.examine w c e rest).EdgesKept w := by
  intro d hd hw
  simp only [EpollSet.examine] at hd ⊢
  split
  · rw [UInt32.zero_and, UInt32.zero_and]
  rename_i hq
  -- `d` is an entry the turn does not touch, or what it leaves of `e`
  have hkeep : ∀ d ∈ s.before ++ rest, w.is d = true →
      s.edges &&& polledEvents (s.polled w.file) &&& d.reported = 0 := by
    intro d hd
    refine h d ?_
    rw [entries, hs]
    exact (List.Sublist.refl _).append (sublist_cons_self e rest) |>.subset hd
  rcases mem_append.1 hd with hd | hd
  swap
  · exact hkeep d (mem_append_right _ hd) hw
  rcases mem_append.1 hd with hd | hd
  · exact hkeep d (mem_append_left _ hd) hw
  obtain ⟨ev, d', hv⟩ : ∃ a b, e.visit (s.table c.pid e.fd = some e.file) (s.polled e.file) true = (a, b) := ⟨_, _, rfl⟩
  rw [hv] at hq hd
  obtain rfl : d' = some d := mem_toList.1 hd
  have hwe : w.is e = true := by rw [← hw, visit_is hv]
  obtain rfl : ev = none := by
    cases ev with
    | none => rfl
    | some _ => exact absurd ⟨hwe, rfl⟩ hq
  have hfile : e.file = w.file := by simp [Watch.is] at hwe; exact hwe.2
  have he : e ∈ s.entries := by rw [entries, hs]; simp
  have hold := h e he hwe
  rw [← hfile] at hold ⊢
  exact visit_quiet hv hold

lemma EdgesKept.exec (h : s.EdgesKept w) {l : SetLabel} (hx : s.Examined w l) (ht : s.exec w l = some t) :
    t.EdgesKept w := by
  cases l with simp only [EpollSet.exec] at ht
  | ready file polled =>
    cases ht
    exact h.setReady hx
  | install pid fd file =>
    cases ht
    exact h
  | ctl pid op fd events data =>
    split at ht
    · cases ht
      intro e he hw
      rcases mem_append.1 he with he | he
      · exact h e (mem_append_left _ he) hw
      rcases mem_epollCtl he with he | he
      · exact h e (mem_append_right _ he) hw
      · rw [he, UInt32.and_zero]
    · cases ht
  | start pid max | finish =>
    split at ht
    · split at ht
      · cases ht
        exact h
      · cases ht
    · cases ht
  | examine =>
    split at ht
    · rename_i hs
      split at ht
      · cases ht
        exact h.examine hs
      · cases ht
    · cases ht

lemma examinedRuns_edgesKept (hr : (examinedRuns w).Reachable s) : s.EdgesKept w := by
  refine LTS.Inductive.reachable ⟨?_, ?_⟩ hr
  · rintro s ⟨-, -, h0, -⟩ e - -
    rw [h0, UInt32.zero_and, UInt32.zero_and]
  rintro s l t h ⟨hx, ht⟩
  exact h.exec hx.2 ht

/-- An edge that has not been reported is reported by the scan that examines the entry while its file is ready. -/
theorem edge_reported (hr : (examinedRuns w).Reachable s) {c : EpollScan} {e : EpollEntry} {rest : List EpollEntry}
    (hc : s.scan = some c) (hs : s.rest = e :: rest) (hm : c.out.length < c.max) (hw : w.is e = true)
    (hlive : s.table c.pid e.fd = some e.file) (hen : e.disabled = false) (het : e.events &&& epollEt ≠ 0)
    (hedge : s.edges &&& e.ready (s.polled e.file) ≠ 0) :
    ∃ t, s.exec w .examine = some t ∧ t.rest = rest ∧ t.edges = 0 ∧
      t.scan = some { c with out := c.out ++ [⟨e.ready (s.polled e.file), e.data⟩] } := by
  have hfile : e.file = w.file := by
    simp only [Watch.is, Bool.and_eq_true, decide_eq_true_eq] at hw
    exact hw.2
  have hkept := examinedRuns_edgesKept hr e (by rw [entries, hs]; simp) hw
  rw [← hfile] at hkept
  have hfresh : e.ready (s.polled e.file) &&& ~~~e.reported ≠ 0 := fun h0 => hedge (masked_reported hkept h0)
  have hready : e.ready (s.polled e.file) ≠ 0 := fun h0 => hedge (by rw [h0, UInt32.and_zero])
  have hreport : e.report (e.ready (s.polled e.file)) = e.ready (s.polled e.file) := by
    rw [EpollEntry.report, if_pos het, if_pos hfresh]
  have hvisit : e.visit (s.table c.pid e.fd = some e.file) (s.polled e.file) true =
      (some ⟨e.ready (s.polled e.file), e.data⟩, some (e.examined (e.ready (s.polled e.file)))) := by
    simp [EpollEntry.visit, hlive, hen, hreport, hready]
  refine ⟨s.examine w c e rest, ?_, rfl, ?_, ?_⟩
  · simp only [EpollSet.exec, hc, hs, if_pos hm]
  · simp [EpollSet.examine, hvisit, hw]
  · simp [EpollSet.examine, hvisit]

/-- Descriptor 3 is file 7, watched for input; the file is not ready. -/
def oneFile : EpollSet where
  before := []
  rest := [⟨3, 7, pollIn ||| epollEt, 9, 0, false⟩]
  scan := none
  table := fun _ fd => if fd = 3 then some 7 else none
  polled := fun _ => 0
  edges := 0

lemma oneFile_starts : oneFile.Starts ⟨3, 7⟩ := by
  refine ⟨rfl, rfl, rfl, ?_⟩
  intro e he _
  rw [mem_singleton.1 he]

theorem edge_reported_oneFile : ∃ s t, (examinedRuns ⟨3, 7⟩).Reachable s ∧ s.exec ⟨3, 7⟩ .examine = some t ∧
    t.scan.map EpollScan.out = some [⟨pollIn, 9⟩] := by
  let run : List SetLabel := [.ready 7 pollIn, .start 0 1]
  have h : ((run.foldlM (fun (s : EpollSet) l =>
      if s.Stays ⟨3, 7⟩ l ∧ s.Examined ⟨3, 7⟩ l then s.exec ⟨3, 7⟩ l else none) oneFile).map
      fun s => ((s.rest, s.scan), s.table 0 3, [s.polled 7, s.edges])) =
      some ((oneFile.rest, some ⟨0, 1, []⟩), some 7, [pollIn, pollIn]) := by decide +kernel
  obtain ⟨s, hrun, he⟩ := map_eq_some_iff.1 h
  simp only [Prod.mk.injEq, List.cons.injEq, and_true] at he
  obtain ⟨⟨hrest, hc⟩, htab, hpolled, hedges⟩ := he
  have hr : (examinedRuns ⟨3, 7⟩).Reachable s := ⟨_, _, oneFile_starts, LTS.run_restrict_ofOption hrun⟩
  obtain ⟨t, ht, -, -, hout⟩ := edge_reported hr hc hrest (by decide) (by decide) htab rfl (by decide)
    (by rw [hpolled, hedges]; decide)
  refine ⟨s, t, hr, ht, ?_⟩
  rw [hout, hpolled]
  decide

/-- Ready, reported, not ready, and ready again before the next scan. -/
def secondEdge : List SetLabel :=
  [.ready 7 pollIn, .start 0 1, .examine, .finish, .ready 7 0, .ready 7 pollIn, .start 0 1]

/-- The second edge is not reported by the scan that examines the entry while the file is ready. -/
theorem second_edge_lost : ∃ s t c e, (system ⟨3, 7⟩).Reachable s ∧ s.scan = some c ∧ s.rest = [e] ∧
    c.out.length < c.max ∧ s.table c.pid e.fd = some e.file ∧ e.file = 7 ∧ e.disabled = false ∧
    e.events &&& epollEt ≠ 0 ∧ s.edges &&& e.ready (s.polled e.file) ≠ 0 ∧
    s.exec ⟨3, 7⟩ .examine = some t ∧ t.scan.map EpollScan.out = some [] := by
  have h : ((secondEdge.foldlM (fun (s : EpollSet) l => if s.Stays ⟨3, 7⟩ l then s.exec ⟨3, 7⟩ l else none) oneFile).bind
      fun s => (s.exec ⟨3, 7⟩ .examine).map fun t =>
        ((s.rest, s.scan), (s.table 0 3, [s.polled 7, s.edges]), t.scan.map EpollScan.out)) =
      some (([⟨3, 7, pollIn ||| epollEt, 9, pollIn, false⟩], some ⟨0, 1, []⟩), (some 7, [pollIn, pollIn]), some []) := by
    decide +kernel
  obtain ⟨s, hrun, he⟩ := bind_eq_some_iff.1 h
  obtain ⟨t, ht, he⟩ := map_eq_some_iff.1 he
  simp only [Prod.mk.injEq, List.cons.injEq, and_true] at he
  obtain ⟨⟨hrest, hc⟩, ⟨htab, hpolled, hedges⟩, hout⟩ := he
  exact ⟨s, t, _, _, ⟨_, _, oneFile_starts, LTS.run_restrict_ofOption hrun⟩, hc, hrest, by decide, htab, rfl, rfl, by decide,
    by rw [hpolled, hedges]; decide, ht, hout⟩

end EpollSet

end Hermes.L6
