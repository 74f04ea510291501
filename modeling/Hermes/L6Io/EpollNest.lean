import Hermes.Core.Shallow
import Hermes.L6Io.Epoll

/-!
# Nested epoll sets

An epoll set may watch another. `epoll_collect` polls the inner set under the lock of the outer one, and `epoll_loops`
refuses an entry that would close a cycle or nest too deep. It skips the entries that are stale when it runs, which a
`dup2` can revive, and it measures only below the set that is added.

* `nesting_bounded`: no cycle, where no stale entry is revived and no set is added below others (sys_epoll.c:267).
* `revived_cycle`: two sets that watch each other.
-/
namespace Hermes.L6

open List Option

abbrev procMaxFileDescriptors : Nat := 256
abbrev epollMaxDepth : Nat := 4
/-- `POLLRDNORM` -/
abbrev pollRdnorm : UInt32 := 0x40

/-- `poll_file` of the entries that are live and enabled -/
def pollEntry {ε : Type} (live : EpollEntry → Bool) (polled : EpollEntry → Except ε UInt32) (e : EpollEntry) :
    Except ε UInt32 :=
  if live e ∧ e.disabled = false then polled e else .ok 0

/-- The loop of `epoll_collect_locked`, with `count` events reported so far: what it reports, and the entries it leaves.
`polled` is `poll_file`, which may fail to return. -/
def epollCollect {ε : Type} (live : EpollEntry → Bool) (polled : EpollEntry → Except ε UInt32) (max : Nat) (consume : Bool) :
    Nat → List EpollEntry → Except ε (List EpollEvent × List EpollEntry)
  | _, [] => .ok ([], [])
  | count, e :: es =>
    if max ≤ count then .ok ([], e :: es)
    else do
      let r ← pollEntry live polled e
      let v := e.visit (live e) r consume
      let rest ← epollCollect live polled max consume (count + v.1.toList.length) es
      .ok (v.1.toList ++ rest.1, v.2.toList ++ rest.2)

/-- A file, by what its node is. -/
inductive File
  | epoll (entries : List EpollEntry)
  /-- any other; `INODE_FILE` and `INODE_DIR` are regular -/
  | other (regular : Bool)
deriving DecidableEq

/-- Why a function does not return. -/
inductive Stop
  /-- it waits for a spinlock it holds -/
  | deadlock
  /-- it calls itself more often than it was given to -/
  | depth
deriving DecidableEq

/-- The files that are open, by their address, and the descriptor tables. -/
structure Nest where
  files : Nat → Option File
  tables : List Nat
  slot : Nat → Nat → Option Nat

namespace Nest

variable (s : Nest)

/-! ## Descriptors -/

def setSlot (p fd : Nat) (f : Option Nat) : Nest :=
  { s with slot := fun q d => if q = p ∧ d = fd then f else s.slot q d }

def setFile (f : Nat) (x : Option File) : Nest := { s with files := fun g => if g = f then x else s.files g }

/-- A descriptor of the table refers to the file. -/
def has (p f : Nat) : Bool := (List.range procMaxFileDescriptors).any fun d => s.slot p d = some f

/-- A descriptor refers to the file. -/
def refers (f : Nat) : Bool := s.tables.any fun p => s.has p f

/-- `vfs_file_put`: the file goes with its last descriptor. -/
def put (f : Nat) : Nest := if s.refers f then s else s.setFile f none

/-- The descriptor `fd_install_from` takes. -/
def freeSlot (p min : Nat) : Option Nat :=
  (List.range procMaxFileDescriptors).find? fun d => min ≤ d && (s.slot p d).isNone

/-- `fd_install_from` of a new file -/
def openFile (p f : Nat) (x : File) : Option Nest :=
  if s.files f = none ∧ p ∈ s.tables then (s.freeSlot p 0).map fun d => (s.setFile f (some x)).setSlot p d (some f) else none

/-- `dup_from` -/
def dupFrom (p fd min : Nat) : Option Nest := do
  let f ← s.slot p fd
  let d ← s.freeSlot p min
  some (s.setSlot p d (some f))

/-- `sys_dup2` of two descriptors that differ -/
def dup2 (p old new : Nat) : Option Nest := do
  let f ← s.slot p old
  if old = new ∨ procMaxFileDescriptors ≤ new then none
  else
    let t := s.setSlot p new (some f)
    some (match s.slot p new with
      | none => t
      | some g => t.put g)

/-- `fd_close` -/
def close (p fd : Nat) : Option Nest := (s.slot p fd).map fun f => (s.setSlot p fd none).put f

/-- `files_clone` -/
def fork (p q : Nat) : Option Nest :=
  if p ∈ s.tables ∧ q ∉ s.tables then
    some { s with tables := q :: s.tables, slot := fun r d => if r = q then s.slot p d else s.slot r d }
  else none

/-- `files_release` -/
def exit (p : Nat) : Nest :=
  let t : Nest := { s with tables := s.tables.filter (· ≠ p), slot := fun q d => if q = p then none else s.slot q d }
  { t with files := fun f => if s.has p f ∧ t.refers f = false then none else s.files f }

/-! ## Sets -/

/-- The entries of a set; a file that is none has none. -/
def entriesOf (u : Nat) : List EpollEntry :=
  match s.files u with
  | some (.epoll es) => es
  | _ => []

def isEpoll (f : Nat) : Bool :=
  match s.files f with
  | some (.epoll _) => true
  | _ => false

/-- The descriptor of the entry has its file, in the table `p`. -/
def live (p : Nat) (e : EpollEntry) : Bool := s.slot p e.fd = some e.file

/-- `epoll_collect` of the set `u`, called in a process with the table `p` that holds the locks `held`; the first argument
bounds how deep it may call itself. `polled` is what other files are ready for. -/
def collect (polled : Nat → UInt32) (p : Nat) :
    Nat → List Nat → Nat → Nat → Bool → Except Stop (List EpollEvent × List EpollEntry)
  | 0, _, _, _, _ => .error .depth
  | n + 1, held, u, max, consume =>
    if u ∈ held then .error .deadlock
    else epollCollect (s.live p) (fun e =>
      if s.isEpoll e.file then
        (collect polled p n (u :: held) e.file 1 false).map fun r => if r.1 = [] then 0 else pollIn ||| pollRdnorm
      else .ok (polled e.file)) max consume 0 (s.entriesOf u)

/-- The loop of `epoll_loops` over the entries. -/
def anyLoops (f : EpollEntry → Except Stop Bool) : List EpollEntry → Except Stop Bool
  | [] => .ok false
  | e :: es => do
    if ← f e then .ok true else anyLoops f es

/-- `epoll_loops` of the set `target`, with `EPOLL_MAX_DEPTH - depth` levels left and the locks `held`. -/
def loops (p ep : Nat) : Nat → List Nat → Nat → Except Stop Bool
  | n, held, target =>
    if target = ep then .ok true
    else match n with
      | 0 => .ok true
      | n + 1 =>
        if target ∈ held then .error .deadlock
        else anyLoops (fun e =>
          if s.live p e ∧ s.isEpoll e.file then loops p ep n (target :: held) e.file else .ok false) (s.entriesOf target)

/-- `sys_epoll_ctl` when it succeeds -/
def ctl (p epfd : Nat) (op : CtlOp) (fd : Nat) (events : UInt32) (data : UInt64) : Option Nest := do
  let ep ← s.slot p epfd
  let f ← s.slot p fd
  if s.isEpoll ep = false ∨ epfd = fd ∨ s.files f = some (.other true) then none
  else
    let found := epollFind (s.entriesOf ep) fd f
    let t := s.setFile ep (some (.epoll (epollCtl (s.entriesOf ep) op fd f events data)))
    match op with
    | .add =>
      if found ≠ none then none
      else if s.isEpoll f = false ∨ s.loops p ep epollMaxDepth [ep] f = .ok false then some t
      else none
    | _ => if found = none then none else some t

/-- A scan of `epoll_wait` that returns. -/
def wait (polled : Nat → UInt32) (p epfd max depth : Nat) : Option Nest := do
  let ep ← s.slot p epfd
  match s.collect polled p depth [] ep max true with
  | .ok r => if s.isEpoll ep then some (s.setFile ep (some (.epoll r.2))) else none
  | .error _ => none

end Nest

inductive NestLabel
  | create (p f : Nat)
  | openOther (p f : Nat) (regular : Bool)
  | ctl (p epfd : Nat) (op : CtlOp) (fd : Nat) (events : UInt32) (data : UInt64)
  | wait (polled : Nat → UInt32) (p epfd max depth : Nat)
  | dup (p fd min : Nat)
  | dup2 (p old new : Nat)
  | close (p fd : Nat)
  | fork (p q : Nat)
  | exit (p : Nat)

namespace Nest

variable (s : Nest)

def exec : NestLabel → Option Nest
  | .create p f => s.openFile p f (.epoll [])
  | .openOther p f regular => s.openFile p f (.other regular)
  | .ctl p epfd op fd events data => s.ctl p epfd op fd events data
  | .wait polled p epfd max depth => s.wait polled p epfd max depth
  | .dup p fd min => s.dupFrom p fd min
  | .dup2 p old new => s.dup2 p old new
  | .close p fd => s.close p fd
  | .fork p q => s.fork p q
  | .exit p => some (s.exit p)

/-- One process, and no file. -/
def start : Nest := ⟨fun _ => none, [0], fun _ _ => none⟩

def system : LTS Nest NestLabel := LTS.ofOption (· = start) exec

/-- An entry of the set `u` names the file `f`, whether or not its descriptor still has it. -/
def Names (u f : Nat) : Prop := ∃ e ∈ s.entriesOf u, e.file = f

/-- An entry of the set `u` names the set `v`. -/
def Watches (u v : Nat) : Prop := s.Names u v ∧ s.isEpoll v = true

/-- A scan follows an entry of the set `u` to the set `v`, in some process. -/
def Follows (u v : Nat) : Prop :=
  s.isEpoll v = true ∧ ∃ e ∈ s.entriesOf u, e.file = v ∧ ∃ p ∈ s.tables, s.live p e = true

/-- A new set is not made at an address that a stale entry names; a set is added to one that no entry names, and below the
set that is added no entry for a set is stale for the caller. -/
def Careful : NestLabel → Prop
  | .create _ f => ∀ u, ¬ s.Names u f
  | .ctl p epfd .add fd _ _ => ∀ ep f, s.slot p epfd = some ep → s.slot p fd = some f → s.isEpoll f = true →
      (∀ u, ¬ s.Names u ep) ∧
        ∀ u, Relation.ReflTransGen s.Watches f u → ∀ e ∈ s.entriesOf u, s.isEpoll e.file = true → s.live p e = true
  | _ => True

/-- The runs in which nesting is built from the bottom, over live entries. -/
def carefulRuns : LTS Nest NestLabel := system.restrict Careful

/-! ## What the operations do to the graph -/

variable {s} {t : Nest}

variable {ε : Type} {u p fd max n : Nat} {es : List EpollEntry} {consume : Bool} {held : List Nat}

lemma ok_of_bind {α β : Type} {x : Except ε α} {f : α → Except ε β} {r : β} (h : (x >>= f) = .ok r) :
    ∃ a, x = .ok a ∧ f a = .ok r := by
  cases x with
  | error _ => cases h
  | ok a => exact ⟨a, rfl, h⟩

/-- No entry of `t` names a set that no entry of `s` named. -/
def Thinner (t s : Nest) : Prop := ∀ u v, t.Watches u v → s.Watches u v

lemma Thinner.of_files (h : t.files = s.files) : t.Thinner s := by
  intro u v ⟨⟨e, he, hv⟩, hi⟩
  refine ⟨⟨e, ?_, hv⟩, ?_⟩
  · rwa [entriesOf, h] at he
  · rwa [isEpoll, h] at hi

/-- Files go, and nothing else changes. -/
lemma Thinner.of_dropped (h : ∀ f, t.files f = none ∨ t.files f = s.files f) : t.Thinner s := by
  intro u v ⟨⟨e, he, hv⟩, hi⟩
  rw [entriesOf] at he
  rw [isEpoll] at hi
  refine ⟨⟨e, ?_, hv⟩, ?_⟩
  · rcases h u with h | h
    · rw [h] at he
      cases he
    · rwa [h] at he
  rcases h v with h | h
  · rw [h] at hi
    cases hi
  · rwa [h] at hi

lemma put_files (s : Nest) (f g : Nat) : (s.put f).files g = none ∨ (s.put f).files g = s.files g := by
  unfold put
  split
  · exact .inr rfl
  by_cases hg : g = f
  · exact .inl (if_pos hg)
  · exact .inr (if_neg hg)

variable {v epfd target : Nat} {e : EpollEntry} {live : EpollEntry → Bool} {polled : EpollEntry → Except ε UInt32}
  {op : CtlOp} {events : UInt32} {data : UInt64}

section SetFile

variable {f : Nat}

variable {x : Option File}

lemma entriesOf_setFile_ne (h : u ≠ f) : (s.setFile f x).entriesOf u = s.entriesOf u := by
  simp only [entriesOf, setFile, if_neg h]

lemma entriesOf_setFile_epoll (es : List EpollEntry) : (s.setFile f (some (.epoll es))).entriesOf f = es := by
  simp only [entriesOf, setFile, if_true]

lemma isEpoll_setFile_ne (h : u ≠ f) : (s.setFile f x).isEpoll u = s.isEpoll u := by
  simp only [isEpoll, setFile, if_neg h]

lemma entriesOf_of_closed (h : s.files f = none) : s.entriesOf f = [] := by simp only [entriesOf, h]

/-- The entries of a set change. -/
lemma isEpoll_setEntries (hf : s.isEpoll f = true) (u : Nat) :
    (s.setFile f (some (.epoll es))).isEpoll u = s.isEpoll u := by
  by_cases h : u = f
  · subst h
    rw [hf]
    simp only [isEpoll, setFile, if_true]
  · exact isEpoll_setFile_ne h

/-- What an entry names after the entries of the set `f` have changed. -/
lemma watches_setEntries (hf : s.isEpoll f = true) (h : (s.setFile f (some (.epoll es))).Watches u v) :
    s.Watches u v ∨ u = f ∧ (∃ e ∈ es, e.file = v) ∧ s.isEpoll v = true := by
  obtain ⟨⟨e, he, hv⟩, hi⟩ := h
  rw [isEpoll_setEntries hf] at hi
  by_cases hu : u = f
  · subst hu
    rw [entriesOf_setFile_epoll] at he
    exact .inr ⟨rfl, ⟨e, he, hv⟩, hi⟩
  · rw [entriesOf_setFile_ne hu] at he
    exact .inl ⟨⟨e, he, hv⟩, hi⟩

lemma Thinner.setEntries (hf : s.isEpoll f = true)
    (hes : ∀ e ∈ es, s.isEpoll e.file = true → ∃ d ∈ s.entriesOf f, d.file = e.file) :
    (s.setFile f (some (.epoll es))).Thinner s := by
  intro u v h
  rcases watches_setEntries hf h with h | ⟨rfl, ⟨e, he, rfl⟩, hi⟩
  · exact h
  · exact ⟨hes e he hi, hi⟩

end SetFile

lemma Thinner.openFile {f : Nat} {x : File} (hx : ∀ es, x = .epoll es → es = [] ∧ ∀ u, ¬ s.Names u f)
    (h : s.openFile p f x = some t) : t.Thinner s := by
  unfold Nest.openFile at h
  split at h
  swap
  · cases h
  rename_i hf
  obtain ⟨d, -, rfl⟩ := map_eq_some_iff.1 h
  intro u v ⟨⟨e, he, hv⟩, hi⟩
  have hentries : ∀ u, (s.setFile f (some x)).entriesOf u = s.entriesOf u := by
    intro u
    by_cases hu : u = f
    · subst hu
      rw [entriesOf_of_closed hf.1]
      cases x with
      | epoll es => rw [entriesOf_setFile_epoll, (hx es rfl).1]
      | other r => simp only [entriesOf, setFile, if_true]
    · exact entriesOf_setFile_ne hu
  have hmem : e ∈ s.entriesOf u := hentries u ▸ he
  by_cases hvf : v = f
  · -- only a new set could be watched, and nothing names it
    subst hvf
    cases x with
    | epoll es => exact absurd ⟨e, hmem, hv⟩ ((hx es rfl).2 u)
    | other r =>
      have hi : (s.setFile v (some (.other r))).isEpoll v = true := hi
      simp only [isEpoll, setFile] at hi
      cases hi
  · have hi : (s.setFile f (some x)).isEpoll v = true := hi
    rw [isEpoll_setFile_ne hvf] at hi
    exact ⟨⟨e, hmem, hv⟩, hi⟩

lemma Thinner.dupFrom {min : Nat} (h : s.dupFrom p fd min = some t) : t.Thinner s := by
  obtain ⟨f, -, h⟩ := bind_eq_some_iff.1 h
  obtain ⟨d, -, h⟩ := bind_eq_some_iff.1 h
  cases h
  exact .of_files rfl

lemma Thinner.dup2 {old new : Nat} (h : s.dup2 p old new = some t) : t.Thinner s := by
  obtain ⟨f, -, h⟩ := bind_eq_some_iff.1 h
  split at h
  · cases h
  cases h
  split
  · exact .of_files rfl
  · exact .of_dropped (put_files _ _)

lemma Thinner.close (h : s.close p fd = some t) : t.Thinner s := by
  obtain ⟨f, -, rfl⟩ := map_eq_some_iff.1 h
  exact .of_dropped (put_files _ f)

lemma Thinner.fork {q : Nat} (h : s.fork p q = some t) : t.Thinner s := by
  unfold Nest.fork at h
  split at h
  · cases h
    exact .of_files rfl
  · cases h

lemma Thinner.exit (s : Nest) (p : Nat) : (s.exit p).Thinner s := by
  refine .of_dropped fun f => ?_
  unfold Nest.exit
  dsimp only
  split
  · exact .inl rfl
  · exact .inr rfl

/-- A turn of the loop leaves the file of an entry. -/
lemma visit_file {d : EpollEntry} {live : Bool} {polled : UInt32} (h : d ∈ (e.visit live polled consume).2) :
    d.file = e.file := by
  unfold EpollEntry.visit at h
  split at h
  · cases consume with
    | true => cases h
    | false => cases h; rfl
  split at h
  · cases h
    rfl
  cases consume with
  | true | false => cases h; rfl

/-- A scan leaves no entry that was not there. -/
lemma epollCollect_files {count : Nat} {r : List EpollEvent × List EpollEntry}
    (h : epollCollect live polled max consume count es = .ok r) : ∀ e ∈ r.2, ∃ d ∈ es, d.file = e.file := by
  induction es generalizing count r with
  | nil =>
    cases h
    intro e he
    cases he
  | cons d es ih =>
    unfold epollCollect at h
    split at h
    · cases h
      exact fun e he => ⟨e, he, rfl⟩
    obtain ⟨x, -, h⟩ := ok_of_bind h
    obtain ⟨rest, hrest, h⟩ := ok_of_bind h
    cases h
    intro e he
    rcases mem_append.1 he with he | he
    · exact ⟨d, mem_cons_self, (visit_file (mem_toList.1 he)).symm⟩
    obtain ⟨d', hd', hf⟩ := ih hrest e he
    exact ⟨d', mem_cons_of_mem d hd', hf⟩

lemma Thinner.wait {polled : Nat → UInt32} {depth : Nat} (h : s.wait polled p epfd max depth = some t) :
    t.Thinner s := by
  obtain ⟨ep, -, h⟩ := bind_eq_some_iff.1 h
  split at h
  swap
  · cases h
  rename_i hr
  split at h
  · rename_i hep
    cases h
    refine .setEntries hep fun e he _ => ?_
    cases depth with
    | zero => cases hr
    | succ n =>
      unfold collect at hr
      split at hr
      · cases hr
      · exact epollCollect_files hr e he
  · cases h

/-- `sys_epoll_ctl` makes no entry for another file. -/
lemma epollCtl_files {file : Nat} (he : e ∈ epollCtl es op fd file events data) :
    (∃ d ∈ es, d.file = e.file) ∨ op = .add ∧ e.file = file := by
  unfold epollCtl at he
  split at he
  · rcases mem_append.1 he with he | he
    · exact .inl ⟨e, he, rfl⟩
    · exact .inr ⟨rfl, by rw [mem_singleton.1 he]⟩
  · exact .inl ⟨e, he, rfl⟩
  · exact .inl ⟨e, he, rfl⟩
  · split at he
    · exact .inl ⟨e, he, rfl⟩
    obtain ⟨d, hd, rfl⟩ := mem_map.1 he
    refine .inl ⟨d, hd, ?_⟩
    split <;> rfl
  · exact .inl ⟨e, (mem_filter.1 he).1, rfl⟩

/-- The graph after `sys_epoll_ctl`: as it was, or with one edge for which `epoll_loops` found nothing. -/
lemma ctl_cases (h : s.ctl p epfd op fd events data = some t) :
    t.Thinner s ∨ op = .add ∧ ∃ ep f, s.slot p epfd = some ep ∧ s.slot p fd = some f ∧ s.isEpoll f = true ∧
      s.loops p ep epollMaxDepth [ep] f = .ok false ∧ ∀ u v, t.Watches u v → s.Watches u v ∨ u = ep ∧ v = f := by
  obtain ⟨ep, hep, h⟩ := bind_eq_some_iff.1 h
  obtain ⟨f, hf, h⟩ := bind_eq_some_iff.1 h
  split at h
  · cases h
  rename_i hok
  have hset : s.isEpoll ep = true := by
    cases hi : s.isEpoll ep with
    | true => rfl
    | false => exact absurd (.inl hi) hok
  have hold : op ≠ .add ∨ s.isEpoll f = false →
      (s.setFile ep (some (.epoll (epollCtl (s.entriesOf ep) op fd f events data)))).Thinner s := by
    intro hn
    refine .setEntries hset fun e he hi => ?_
    rcases epollCtl_files he with hd | ⟨ha, hfile⟩
    · exact hd
    rcases hn with hn | hn
    · exact absurd ha hn
    rw [hfile, hn] at hi
    cases hi
  cases op with
  | add =>
    simp only at h
    split at h
    · cases h
    split at h
    swap
    · cases h
    rename_i hl
    cases h
    cases hi : s.isEpoll f with
    | false => exact .inl (hold (.inr hi))
    | true =>
      have hloops := hl.resolve_left (by rw [hi]; decide)
      refine .inr ⟨rfl, ep, f, hep, hf, hi, hloops, ?_⟩
      intro u v huv
      rcases watches_setEntries hset huv with huv | ⟨rfl, ⟨e, he, rfl⟩, hv⟩
      · exact .inl huv
      rcases epollCtl_files he with hd | ⟨-, hfile⟩
      · exact .inl ⟨hd, hv⟩
      · exact .inr ⟨rfl, hfile⟩
  | del | mod =>
    simp only at h
    split at h
    · cases h
    cases h
    exact .inl (hold (.inl nofun))

/-! ## What `epoll_loops` finds -/

variable {f : EpollEntry → Except Stop Bool}

lemma anyLoops_false (h : anyLoops f es = .ok false) : ∀ e ∈ es, f e = .ok false := by
  induction es with
  | nil =>
    intro e he
    cases he
  | cons d es ih =>
    obtain ⟨b, hb, h⟩ := ok_of_bind h
    cases b with
    | true => cases h
    | false =>
      intro e he
      rcases mem_cons.1 he with rfl | he
      · exact hb
      · exact ih h e he

/-- Where no entry is stale, a set that passes the check is shallow. -/
lemma loops_shallow {ep : Nat}
    (hlive : ∀ u, Relation.ReflTransGen s.Watches target u → ∀ e ∈ s.entriesOf u, s.isEpoll e.file = true → s.live p e = true)
    (h : s.loops p ep n held target = .ok false) : target ≠ ep ∧ Shallow s.Watches n target := by
  induction n generalizing held target with
  | zero =>
    unfold loops at h
    split at h <;> cases h
  | succ n ih =>
    unfold loops at h
    split at h
    · cases h
    rename_i hne
    refine ⟨hne, ?_⟩
    simp only at h
    split at h
    · cases h
    rintro v ⟨⟨e, he, rfl⟩, hi⟩
    have hstep : s.Watches target e.file := ⟨⟨e, he, rfl⟩, hi⟩
    have he' := anyLoops_false h e he
    rw [if_pos ⟨hlive target .refl e he hi, hi⟩] at he'
    exact (ih (fun u hu => hlive u (.head hstep hu)) he').2

/-! ## Nesting stays bounded -/

/-- No set has a path of more than `EPOLL_MAX_DEPTH + 1` sets below it, itself included. -/
def Bounded (s : Nest) : Prop := ∀ u, Shallow s.Watches (epollMaxDepth + 1) u

lemma Bounded.thinner (h : s.Bounded) (ht : t.Thinner s) : t.Bounded := fun u => (h u).mono ht

lemma Bounded.exec (h : s.Bounded) {l : NestLabel} (hc : s.Careful l) (ht : s.exec l = some t) : t.Bounded := by
  cases l with
  | create p f =>
    refine h.thinner (.openFile ?_ ht)
    intro es hes
    cases hes
    exact ⟨rfl, hc⟩
  | openOther p f regular => exact h.thinner (.openFile (fun es hes => File.noConfusion hes) ht)
  | ctl p epfd op fd events data =>
    rcases ctl_cases ht with ht | ⟨rfl, ep, f, hep, hf, hi, hl, hw⟩
    · exact h.thinner ht
    obtain ⟨htop, hlive⟩ := hc ep f hep hf hi
    obtain ⟨hne, hshallow⟩ := loops_shallow hlive hl
    exact fun u => Shallow.add_edge hw (fun x hx => htop x hx.1) hne hshallow (h u)
  | wait polled p epfd max depth => exact h.thinner (.wait ht)
  | dup p fd min => exact h.thinner (.dupFrom ht)
  | dup2 p old new => exact h.thinner (.dup2 ht)
  | close p fd => exact h.thinner (.close ht)
  | fork p q => exact h.thinner (.fork ht)
  | exit p =>
    cases ht
    exact h.thinner (.exit s p)

lemma carefulRuns_bounded (hr : carefulRuns.Reachable s) : s.Bounded := by
  refine LTS.Inductive.reachable ⟨?_, ?_⟩ hr
  · rintro s rfl u v ⟨⟨e, he, -⟩, -⟩
    cases he
  rintro s l t h ⟨hc, ht⟩
  exact h.exec hc ht

/-! ## The functions return -/

lemma anyLoops_ok (h : ∀ e ∈ es, ∃ b, f e = .ok b) : ∃ b, anyLoops f es = .ok b := by
  induction es with
  | nil => exact ⟨false, rfl⟩
  | cons e es ih =>
    obtain ⟨b, hb⟩ := h e mem_cons_self
    obtain ⟨c, hc⟩ := ih fun d hd => h d (mem_cons_of_mem e hd)
    unfold anyLoops
    rw [hb]
    cases b with
    | true => exact ⟨true, rfl⟩
    | false => exact ⟨c, hc⟩

/-- `epoll_loops` takes no lock twice: each lock it holds is that of the set it is called for, or of one above. -/
lemma Bounded.loops_ok (h : s.Bounded) (p ep : Nat)
    (hheld : ∀ u ∈ held, u = ep ∨ Relation.TransGen s.Watches u target) : ∃ b, s.loops p ep n held target = .ok b := by
  induction n generalizing held target with
  | zero =>
    unfold loops
    split <;> exact ⟨true, rfl⟩
  | succ n ih =>
    unfold loops
    split
    · exact ⟨true, rfl⟩
    rename_i hne
    simp only
    split
    · rename_i hin
      rcases hheld target hin with rfl | hcycle
      · exact absurd rfl hne
      · exact absurd hcycle (h target).not_transGen
    refine anyLoops_ok fun e he => ?_
    split
    · rename_i hi
      have hstep : s.Watches target e.file := ⟨⟨e, he, rfl⟩, hi.2⟩
      refine ih fun u hu => ?_
      rcases mem_cons.1 hu with rfl | hu
      · exact .inr (.single hstep)
      · exact (hheld u hu).imp_right fun hp => hp.tail hstep
    · exact ⟨false, rfl⟩

lemma epollCollect_ok (h : ∀ e ∈ es, ∃ r, polled e = .ok r) (count : Nat) :
    ∃ r, epollCollect live polled max consume count es = .ok r := by
  induction es generalizing count with
  | nil => exact ⟨_, rfl⟩
  | cons e es ih =>
    unfold epollCollect
    split
    · exact ⟨_, rfl⟩
    have hp : ∃ r, pollEntry live polled e = .ok r := by
      unfold pollEntry
      split
      · exact h e mem_cons_self
      · exact ⟨0, rfl⟩
    obtain ⟨r, hr⟩ := hp
    obtain ⟨rest, hrest⟩ := ih (fun d hd => h d (mem_cons_of_mem e hd))
      (count + (e.visit (live e) r consume).1.toList.length)
    refine ⟨((e.visit (live e) r consume).1.toList ++ rest.1, (e.visit (live e) r consume).2.toList ++ rest.2), ?_⟩
    rw [hr]
    show (epollCollect live polled max consume _ es >>= _) = _
    rw [hrest]
    rfl

/-- `epoll_collect` takes no lock twice, and calls itself no deeper than the graph. -/
lemma collect_ok {polled : Nat → UInt32} (hn : Shallow s.Watches n u)
    (hheld : ∀ x ∈ held, Relation.TransGen s.Watches x u) : ∃ r, s.collect polled p n held u max consume = .ok r := by
  induction n generalizing held u max consume with
  | zero => exact hn.elim
  | succ n ih =>
    unfold collect
    split
    · rename_i hin
      exact absurd (hheld u hin) hn.not_transGen
    refine epollCollect_ok (fun e he => ?_) 0
    split
    · rename_i hi
      have hstep : s.Watches u e.file := ⟨⟨e, he, rfl⟩, hi⟩
      have habove : ∀ x ∈ u :: held, Relation.TransGen s.Watches x e.file := by
        intro x hx
        rcases mem_cons.1 hx with rfl | hx
        · exact .single hstep
        · exact (hheld x hx).tail hstep
      obtain ⟨r, hr⟩ : ∃ r, s.collect polled p n (u :: held) e.file 1 false = .ok r := ih (hn e.file hstep) habove
      exact ⟨_, by rw [hr]; rfl⟩
    · exact ⟨_, rfl⟩

lemma Follows.watches (h : s.Follows u v) : s.Watches u v := by
  obtain ⟨hi, e, he, hv, -⟩ := h
  exact ⟨⟨e, he, hv⟩, hi⟩

/-- Nesting has no cycle and no path of more than `EPOLL_MAX_DEPTH + 1` sets, and `epoll_collect` and `epoll_loops`
return without waiting for a lock they hold. -/
theorem nesting_bounded (hr : carefulRuns.Reachable s) : (∀ u, ¬ Relation.TransGen s.Follows u u) ∧
    (∀ u l, List.IsChain s.Follows (u :: l) → (u :: l).length ≤ epollMaxDepth + 1) ∧
    (∀ polled p u max consume, ∃ r, s.collect polled p (epollMaxDepth + 1) [] u max consume = .ok r) ∧
    (∀ p ep f, ∃ b, s.loops p ep epollMaxDepth [ep] f = .ok b) := by
  have h := carefulRuns_bounded hr
  have hf : ∀ u, Shallow s.Follows (epollMaxDepth + 1) u := fun u => (h u).mono fun _ _ hw => hw.watches
  refine ⟨fun u => (hf u).not_transGen, fun u l hl => (hf u).length_le hl, ?_, ?_⟩
  · exact fun polled p u max consume => collect_ok (h u) fun x hx => nomatch hx
  · exact fun p ep f => h.loops_ok p ep fun u hu => .inl (mem_singleton.1 hu)

lemma entriesOf_new (h : ∀ u, s.entriesOf u = []) (f p fd u : Nat) :
    ((s.setFile f (some (.epoll []))).setSlot p fd (some f)).entriesOf u = [] := by
  show (s.setFile f (some (.epoll []))).entriesOf u = []
  by_cases hu : u = f
  · rw [hu, entriesOf_setFile_epoll]
  · rw [entriesOf_setFile_ne hu, h u]

/-- A set without entries, and two. -/
def oneSet : Nest := (start.setFile 10 (some (.epoll []))).setSlot 0 0 (some 10)
def twoSets : Nest := (oneSet.setFile 11 (some (.epoll []))).setSlot 0 1 (some 11)

lemma oneSet_entries : ∀ u, oneSet.entriesOf u = [] := entriesOf_new (fun _ => rfl) 10 0 0

lemma twoSets_entries : ∀ u, twoSets.entriesOf u = [] := entriesOf_new oneSet_entries 11 0 1

lemma not_names_of_empty (h : ∀ u, s.entriesOf u = []) (u f : Nat) : ¬ s.Names u f := by
  rintro ⟨e, he, -⟩
  rw [h u] at he
  cases he

/-- The first set watches the second. -/
theorem nesting_bounded_oneInner : ∃ s, carefulRuns.Reachable s ∧ s.Follows 10 11 ∧ ¬ Relation.TransGen s.Follows 10 10 := by
  have h : (twoSets.exec (.ctl 0 0 .add 1 pollIn 7)).map (fun s => (s.entriesOf 10, s.slot 0 1, s.isEpoll 11, s.tables)) =
      some ([⟨1, 11, pollIn, 7, 0, false⟩], some 11, true, [0]) := by decide +kernel
  obtain ⟨s, hs, he⟩ := map_eq_some_iff.1 h
  simp only [Prod.mk.injEq] at he
  obtain ⟨h10, h1, hi, ht⟩ := he
  have hr : carefulRuns.Reachable s := by
    refine ⟨start, [.create 0 10, .create 0 11, .ctl 0 0 .add 1 pollIn 7], rfl, ?_⟩
    refine .cons ⟨?_, (rfl : _ = some oneSet)⟩ (.cons ⟨?_, (rfl : _ = some twoSets)⟩ (.cons ⟨?_, hs⟩ (.nil s)))
    · exact fun u => not_names_of_empty (fun _ => rfl) u 10
    · exact fun u => not_names_of_empty oneSet_entries u 11
    intro ep f _ _ _
    refine ⟨fun u => not_names_of_empty twoSets_entries u ep, fun u _ e he => ?_⟩
    rw [twoSets_entries] at he
    cases he
  refine ⟨s, hr, ⟨hi, ?_⟩, (nesting_bounded hr).1 10⟩
  exact ⟨_, by rw [h10]; exact mem_singleton.2 rfl, rfl, 0, by simp [ht], by simp [live, h1]⟩

/-- The second set is kept by another descriptor while its own is closed, the first is added to it, and the descriptor
is set up again. -/
def revived : List NestLabel :=
  [.create 0 10, .create 0 11, .ctl 0 0 .add 1 pollIn 7, .dup 0 1 0, .close 0 1, .ctl 0 2 .add 0 pollIn 8, .dup2 0 2 1]

/-- The two sets watch each other, and a scan waits for its own lock. -/
theorem revived_cycle : ∃ s, system.Reachable s ∧ s.Follows 10 11 ∧ s.Follows 11 10 ∧
    s.collect (fun _ => 0) 0 3 [] 10 1 true = .error .deadlock := by
  have h : (revived.foldlM exec start).map (fun s => ([s.entriesOf 10, s.entriesOf 11],
      ([s.slot 0 0, s.slot 0 1], s.tables), [s.isEpoll 10, s.isEpoll 11,
        match s.collect (fun _ => 0) 0 3 [] 10 1 true with
        | .error .deadlock => true
        | _ => false])) =
      some ([[⟨1, 11, pollIn, 7, 0, false⟩], [⟨0, 10, pollIn, 8, 0, false⟩]], ([some 10, some 11], [0]),
        [true, true, true]) := by decide +kernel
  obtain ⟨s, hrun, he⟩ := map_eq_some_iff.1 h
  simp only [Prod.mk.injEq, List.cons.injEq, and_true] at he
  obtain ⟨⟨h10, h11⟩, ⟨⟨s0, s1⟩, ht⟩, i10, i11, hc⟩ := he
  have hc : s.collect (fun _ => 0) 0 3 [] 10 1 true = .error .deadlock := by
    split at hc
    · assumption
    · cases hc
  refine ⟨s, ⟨_, _, rfl, LTS.run_ofOption hrun⟩, ⟨i11, ?_⟩, ⟨i10, ?_⟩, hc⟩
  · exact ⟨_, by rw [h10]; exact mem_singleton.2 rfl, rfl, 0, by simp [ht], by simp [live, s1]⟩
  · exact ⟨_, by rw [h11]; exact mem_singleton.2 rfl, rfl, 0, by simp [ht], by simp [live, s0]⟩

end Nest

end Hermes.L6
