import Hermes.L3Net.Ipv6RoundTrip

/-!
# Packets longer than their length field

`ipv6_reassemble` checks that the data of the fragments ends at 65535 or before. The extension headers before the data
count for the length field too, and `ipv6_reassemble_complete` casts the sum to sixteen bits: with eight bytes of options
and 65535 bytes of data, a packet of 65583 bytes says that seven bytes follow its header. And `ipv6_fragment` makes more
fragments than `ipv6_reassemble` keeps.
-/
namespace Hermes.L3.Bugs

open QueueTable List

/-- A header, and eight bytes of hop-by-hop options before the fragment header. -/
def longHeader : Bytes :=
  [0x60, 0, 0, 0, 0, 0, 0, 64] ++ List.replicate 15 0 ++ [1] ++ List.replicate 15 0 ++ [2] ++ [44, 0, 1, 4, 0, 0, 0, 0]

/-- A fragment of zeroes. -/
def longFragment (off len : Nat) (more : Bool) : Ipv6Input :=
  ⟨ipv6FragmentAt longHeader 17 [0, 0, 0, 7] off (List.replicate len 0) more, 48⟩

/-- The first fragment, with 32768 bytes. -/
def longFirst : Ipv6Input := longFragment 0 32768 true

/-- The last, with 32767. -/
def longLast : Ipv6Input := longFragment 32768 32767 false

/-! ## Too many fragments -/

lemma withFrag_nFrags (q : Ipv6Queue) (a : Ipv6Input) (prevNh : Nat) : (q.withFrag a prevNh).nFrags = q.nFrags + 1 := by
  unfold Ipv6Queue.withFrag Ipv6Queue.withFirst Ipv6Queue.withTotal
  split <;> split <;> rfl

/-- A fragment that has arrived overlaps with itself. -/
lemma bad_of_arrived {d id : Bytes} {frags r : List Ipv6Input} {q : Ipv6Queue} {a : Ipv6Input} (hc : Ipv6Cut d id frags)
    (h : Ipv6Held d frags r q) (ha : a ∈ frags) (hr : a ∈ r) : q.bad a = true := by
  have hpos := (hc.tiles.mem_le ha).2.1
  have hmem : a.piece ∈ q.frags := by
    rw [h.queued]
    exact mem_map_of_mem (mem_filter.2 ⟨ha, by simpa using hr⟩)
  unfold Ipv6Queue.bad
  simp only [Bool.or_eq_true, any_eq_true, Bool.and_eq_true, decide_eq_true_eq]
  exact .inl (.inr ⟨a.piece, hmem, .inl ⟨Nat.lt_add_of_pos_right hpos, Nat.lt_add_of_pos_right hpos⟩⟩)

/-- No packet comes of more fragments than the queue takes, in whatever order and however often they arrive: with one too
many those that are there are dropped. -/
lemma many_not_delivered {d id : Bytes} {frags : List Ipv6Input} {qs : Ipv6Queues} {as : List Ipv6Arrival}
    (hc : Ipv6Cut d id frags) (hmany : ipv6ReassembleMaxFrags < frags.length)
    (has : ∀ a ∈ as, a.toIpv6Input ∈ frags ∧ a.mem = ⟨true, true, true⟩)
    (h : ∃ r, Ipv6Held d frags r ((lookup qs (ipv6Key d id)).getD .empty)) :
    ipv6Delivered (ipv6Key d id) qs as = [] := by
  induction as generalizing qs with
  | nil => rfl
  | cons a as ih =>
    obtain ⟨ha, hmem⟩ := has a mem_cons_self
    have has' := fun b hb => has b (mem_cons_of_mem a hb)
    obtain ⟨r, hheld⟩ := h
    have hkey := (hc.fragments _ ha).key
    have hacc := hc.accepts ha
    rw [ipv6Delivered, if_pos hkey, hmem]
    cases hbad : ((lookup qs (ipv6Key d id)).getD .empty).bad a.toIpv6Input with
    | true =>
      -- the queue is dropped
      have hdrop : ipv6Reassemble ⟨true, true, true⟩ qs a.toIpv6Input = (none, remove
          (room qs (ipv6Key d id) ipv6ReassembleMaxQueues) (ipv6Key d id)) := by
        unfold ipv6Reassemble
        rw [hacc]
        dsimp only
        rw [hkey, if_neg (by simp), if_pos (.inl hbad)]
      rw [hdrop]
      refine ih has' ⟨[], ?_⟩
      rw [lookup_remove_same]
      exact .empty d frags
    | false =>
      have hr : a.toIpv6Input ∉ r := by
        intro hr
        rw [bad_of_arrived hc hheld ha hr] at hbad
        cases hbad
      have hcount : ((lookup qs (ipv6Key d id)).getD .empty).nFrags < ipv6ReassembleMaxFrags := by
        by_contra hge
        unfold Ipv6Queue.bad at hbad
        simp only [Bool.or_eq_false_iff, decide_eq_false_iff_not] at hbad
        exact hbad.1.1.1 (Nat.not_lt.1 hge)
      have hnew := hheld.withFrag hc ha hr
      have hnot : ¬ frags ⊆ a.toIpv6Input :: r := by
        intro hall
        have hself : frags.filter (· ∈ a.toIpv6Input :: r) = frags :=
          filter_eq_self.2 fun b hb => by simpa using hall hb
        have hfull := hnew.count
        rw [hself] at hfull
        have hnum := withFrag_nFrags ((lookup qs (ipv6Key d id)).getD .empty) a.toIpv6Input
          (if a.offset = 0 then (ipv6UnfragLen d).2 else 0)
        omega
      rcases hnew.complete hc (ne_nil_of_mem ha) with ⟨hall, -⟩ | ⟨-, hwait⟩
      · exact absurd hall hnot
      rw [ipv6Reassemble_good hacc (by rw [hkey]) hbad, hwait]
      refine ih has' ⟨a.toIpv6Input :: r, ?_⟩
      rw [hkey]
      have hput := @lookup_put_same _ _ _ (room qs (ipv6Key d id) ipv6ReassembleMaxQueues) (ipv6Key d id)
        (((lookup qs (ipv6Key d id)).getD .empty).withFrag a.toIpv6Input
          (if a.offset = 0 then (ipv6UnfragLen d).2 else 0))
      exact (congrArg (fun o => Option.getD o Ipv6Queue.empty) hput).symm ▸ hnew

/-- A packet with 65 times eight bytes of data. -/
def manyPacket : Bytes :=
  [0x60, 0, 0, 0, 2, 8, 17, 64] ++ List.replicate 15 0 ++ [1] ++ List.replicate 15 0 ++ [2] ++ List.replicate 520 0

/-- Two fragments, after which the packet returned has 65543 bytes behind its header and says that it has seven. And a
packet whose fragments, in order and with all the memory they need, give nothing: there are 65. -/
theorem length_field_wraps :
    (∃ w, (ipv6Reassemble ⟨true, true, true⟩ (ipv6Run [] [⟨longFirst, ⟨true, true, true⟩⟩]) longLast).1 = some w ∧
      be16At w 4 = 7 ∧ w.length - ipv6HeaderLen = 65543) ∧
    (∃ frags, ipv6Fragment manyPacket 56 [0, 0, 0, 7] = some frags ∧ frags.length = 65 ∧
      ipv6Delivered (ipv6Key manyPacket [0, 0, 0, 7]) [] (frags.map fun f => ⟨⟨f, 40⟩, ⟨true, true, true⟩⟩) = []) := by
  constructor
  · have h : ((ipv6Reassemble ⟨true, true, true⟩ (ipv6Run [] [⟨longFirst, ⟨true, true, true⟩⟩]) longLast).1.map fun w =>
        (be16At w 4, w.length - ipv6HeaderLen)) = some (7, 65543) := by decide +kernel
    obtain ⟨w, hw, he⟩ := Option.map_eq_some_iff.1 h
    exact ⟨w, hw, Prod.ext_iff.1 he⟩
  have hcount : ((ipv6Fragment manyPacket 56 [0, 0, 0, 7]).map List.length) = some 65 := by decide +kernel
  obtain ⟨frags, hfrags, hlen⟩ := Option.map_eq_some_iff.1 hcount
  have hcut := Ipv6Whole.ipv6Fragment ⟨by decide +kernel, by decide +kernel⟩ rfl hfrags
  have hplace : (ipv6UnfragLen manyPacket).1 = 40 := by decide +kernel
  refine ⟨frags, hfrags, hlen, many_not_delivered hcut ?_ ?_ ⟨[], .empty _ _⟩⟩
  · rw [ipv6Inputs, length_map, hlen]
    decide
  intro a ha
  obtain ⟨f, hf, rfl⟩ := mem_map.1 ha
  refine ⟨?_, rfl⟩
  rw [ipv6Inputs, hplace]
  exact mem_map_of_mem hf

end Hermes.L3.Bugs
