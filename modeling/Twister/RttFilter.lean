import Twister.LinkedQueue
import Twister.Run

/-! The round trip filter: a running mean over the last 255 samples, each kept in a block
of its own, already divided by the length of the filter. -/
namespace Twister

def averageFilterLen : UInt8 := 255

/-- The globals of the filter, with `float` taken as exact. -/
structure RttFilter where
  heap : Heap (Node ℚ)
  rootRttAverage : Option ℕ
  endRttAverage : Option ℕ
  averageListSize : UInt8
  averageRtt : ℚ

/-- The filter before the first sample, in a heap that others use too. -/
def RttFilter.start (heap : Heap (Node ℚ)) : RttFilter := ⟨heap, none, none, 0, 0⟩

/-- Calls of `rte_malloc` and `rte_free`. -/
inductive BlockEvent
  | malloc (block : ℕ)
  | free (block : Option ℕ)

structure RttCall where
  timeClk : UInt64
  mem : Malloc (Node ℚ)

def RttCall.currPktRtt (c : RttCall) : ℚ := c.timeClk.toNat / averageFilterLen.toNat

def twCalcAverageRtt (f : RttFilter) (c : RttCall) : Outcome (RttFilter × List BlockEvent) :=
  match c.mem.pick f.heap with
  -- the entry is written without a check
  | none => .fault
  | some (averageEntry, _) =>
    let heap := f.heap.write averageEntry ⟨c.currPktRtt, none⟩
    if f.averageListSize = 0 then
      .ret (⟨heap, some averageEntry, some averageEntry, f.averageListSize + 1, c.currPktRtt⟩,
        [.malloc averageEntry])
    else if f.averageListSize < averageFilterLen then do
      let heap ← linkBehind heap f.endRttAverage averageEntry
      .ret (⟨heap, f.rootRttAverage, some averageEntry, f.averageListSize + 1,
        f.averageRtt + c.currPktRtt⟩, [.malloc averageEntry])
    else do
      let heap ← linkBehind heap f.endRttAverage averageEntry
      let temp := f.rootRttAverage
      let root ← heap.load temp
      let heap ← heap.free temp
      .ret (⟨heap, root.next, some averageEntry, f.averageListSize,
        f.averageRtt + c.currPktRtt - root.val⟩, [.malloc averageEntry, .free temp])

/-- The blocks handed out, call by call. -/
def handedOut (es : List BlockEvent) : List ℕ :=
  es.filterMap fun
    | .malloc block => some block
    | .free _ => none

/-- The blocks given back, in order. -/
def givenBack (es : List BlockEvent) : List ℕ :=
  es.filterMap fun
    | .malloc _ => none
    | .free block => block

/-- The block and the value of every sample since the start. -/
def samples (calls : List RttCall) (es : List BlockEvent) : List (ℕ × ℚ) :=
  (handedOut es).zip (calls.map RttCall.currPktRtt)

/-- The list holds these blocks, and the counter and the running sum are theirs. -/
structure RttFilter.Lists (f : RttFilter) (nodes : List (ℕ × ℚ)) : Prop where
  queue : LinkedQueue f.heap f.rootRttAverage f.endRttAverage nodes
  size : f.averageListSize.toNat = nodes.length
  sum : f.averageRtt = (nodes.map Prod.snd).sum

/-- The filter lists the last 255 samples. Of the others `freed` says that the block of each
was given back once, and `unlisted` that it is as dead as it was before. -/
structure RttFilter.IsWindow (heap : Heap (Node ℚ)) (calls : List RttCall) (f : RttFilter)
    (es : List BlockEvent) : Prop where
  handed : (handedOut es).length = calls.length
  lists : f.Lists ((samples calls es).rtake 255)
  freed : givenBack es = (handedOut es).take (calls.length - 255)
  fresh : ∀ x ∈ (samples calls es).rtake 255, heap.cell x.1 = none
  unlisted : ∀ b, (∀ x ∈ (samples calls es).rtake 255, x.1 ≠ b) → f.heap.cell b = heap.cell b

section Step
variable {f : RttFilter} {c : RttCall} {nodes : List (ℕ × ℚ)} {a : ℕ} {junk : Node ℚ}

/-- Up to 255 samples the list grows. -/
lemma twCalcAverageRtt_grow (hf : f.Lists nodes) (hlt : nodes.length < 255)
    (hpick : c.mem.pick f.heap = some (a, junk)) :
    ∃ f', twCalcAverageRtt f c = .ret (f', [.malloc a]) ∧ f'.Lists (nodes ++ [(a, c.currPktRtt)]) ∧
      ∀ b, (∀ x ∈ nodes ++ [(a, c.currPktRtt)], x.1 ≠ b) → f'.heap.cell b = f.heap.cell b := by
  have ha := c.mem.fresh _ _ _ hpick
  have hcount : (f.averageListSize + 1).toNat = nodes.length + 1 := by
    rw [UInt8.toNat_add, hf.size, UInt8.toNat_one]
    exact Nat.mod_eq_of_lt (by omega)
  unfold twCalcAverageRtt
  simp only [hpick]
  by_cases hnil : nodes = []
  · have hzero : f.averageListSize = 0 := UInt8.toNat_inj.mp (by rw [hf.size, hnil]; rfl)
    subst hnil
    refine ⟨_, if_pos hzero, ⟨LinkedQueue.singleton _ _ _, by simpa using hcount, by simp⟩, ?_⟩
    intro b hb
    exact Heap.write_cell_ne _ _ fun he => hb (a, c.currPktRtt) (by simp) he.symm
  · have hpos : 0 < nodes.length := List.length_pos_iff.mpr hnil
    have hsome : f.averageListSize ≠ 0 := by
      intro hz
      have hsize := hf.size
      rw [hz] at hsize
      simp at hsize
      omega
    have hless : f.averageListSize < averageFilterLen := by
      rw [UInt8.lt_iff_toNat_lt, hf.size]
      exact hlt
    obtain ⟨h', hlink, hqueue, hframe⟩ := hf.queue.linkBehind_ret hnil ha c.currPktRtt
    rw [if_neg hsome, if_pos hless, hlink, Outcome.ret_bind]
    exact ⟨_, rfl, ⟨hqueue, by simpa using hcount, by simp [hf.sum]⟩, hframe⟩

/-- From then on the oldest sample makes room. -/
lemma twCalcAverageRtt_slide {b : ℕ} {w : ℚ} (hf : f.Lists ((b, w) :: nodes))
    (hfull : nodes.length = 254) (hpick : c.mem.pick f.heap = some (a, junk)) :
    ∃ f', twCalcAverageRtt f c = .ret (f', [.malloc a, .free (some b)]) ∧
      f'.Lists (nodes ++ [(a, c.currPktRtt)]) ∧ f'.heap.cell b = none ∧
      ∀ x, x ≠ b → (∀ y ∈ nodes ++ [(a, c.currPktRtt)], y.1 ≠ x) →
        f'.heap.cell x = f.heap.cell x := by
  have ha := c.mem.fresh _ _ _ hpick
  have hsize : f.averageListSize = 255 :=
    UInt8.toNat_inj.mp (by rw [hf.size, List.length_cons, hfull]; rfl)
  obtain ⟨h', hlink, hqueue, hframe⟩ :=
    hf.queue.linkBehind_ret (List.cons_ne_nil _ _) ha c.currPktRtt
  rw [List.cons_append] at hqueue hframe
  obtain ⟨hroot, n, hn, hrest⟩ := hqueue.release_first (by simp)
  unfold twCalcAverageRtt
  simp only [hpick]
  rw [if_neg (by rw [hsize]; decide), if_neg (by rw [hsize]; decide), hlink, Outcome.ret_bind,
    hroot, Heap.load_some hn, Outcome.ret_bind, Heap.free_some hn, Outcome.ret_bind]
  refine ⟨_, rfl, ⟨hrest, by simp [hsize, hfull], ?_⟩, by simp [Heap.release], ?_⟩
  · simp [hf.sum]
    ring
  · intro x hxb hx
    rw [Heap.release_cell_ne _ hxb]
    refine hframe x fun y hy => ?_
    rcases List.mem_cons.mp hy with rfl | hy
    · exact hxb.symm
    · exact hx y hy

end Step

section Run
variable {heap : Heap (Node ℚ)} {f : RttFilter} {c : RttCall} {calls : List RttCall}
  {es : List BlockEvent} {a : ℕ}

lemma handedOut_append (es es' : List BlockEvent) :
    handedOut (es ++ es') = handedOut es ++ handedOut es' := List.filterMap_append

lemma givenBack_append (es es' : List BlockEvent) :
    givenBack (es ++ es') = givenBack es ++ givenBack es' := List.filterMap_append

lemma samples_snoc (hlen : (handedOut es).length = calls.length) {es' : List BlockEvent}
    (hes : handedOut es' = [a]) :
    samples (calls ++ [c]) (es ++ es') = samples calls es ++ [(a, c.currPktRtt)] := by
  rw [samples, handedOut_append, hes, List.map_append, List.zip_append (by simpa using hlen)]
  rfl

lemma handedOut_length_snoc (hlen : (handedOut es).length = calls.length) {es' : List BlockEvent}
    (hes : handedOut es' = [a]) : (handedOut (es ++ es')).length = (calls ++ [c]).length := by
  rw [handedOut_append, hes, List.length_append, List.length_append, hlen]
  rfl

lemma samples_length (hlen : (handedOut es).length = calls.length) :
    (samples calls es).length = calls.length := by
  simp [samples, hlen]

lemma samples_fst (hlen : (handedOut es).length = calls.length) :
    (samples calls es).map Prod.fst = handedOut es :=
  List.map_fst_zip (by simp [hlen])

lemma samples_snd (hlen : (handedOut es).length = calls.length) :
    (samples calls es).map Prod.snd = calls.map RttCall.currPktRtt :=
  List.map_snd_zip (by simp [hlen])

namespace RttFilter.IsWindow

lemma init (heap : Heap (Node ℚ)) : (RttFilter.start heap).IsWindow heap [] [] where
  handed := rfl
  lists := by
    rw [samples, List.map_nil, List.zip_nil_right, List.rtake_nil]
    exact ⟨⟨rfl, rfl⟩, rfl, rfl⟩
  freed := rfl
  fresh x hx := by simp [samples, List.rtake_nil] at hx
  unlisted _ _ := rfl

/-- A block that the allocator picks was dead at the start too. -/
lemma dead (hw : f.IsWindow heap calls es) (ha : f.heap.cell a = none) : heap.cell a = none := by
  rw [← hw.unlisted a (hw.lists.queue.fresh_ne ha), ha]

lemma fresh_snoc {nodes : List (ℕ × ℚ)} (hold : ∀ x ∈ nodes, heap.cell x.1 = none)
    (ha : heap.cell a = none) (v : ℚ) : ∀ x ∈ nodes ++ [(a, v)], heap.cell x.1 = none := by
  intro x hx
  rcases List.mem_append.mp hx with hx | hx
  · exact hold x hx
  · obtain rfl := List.mem_singleton.mp hx
    exact ha

lemma window_length (hw : f.IsWindow heap calls es) :
    ((samples calls es).rtake 255).length = min calls.length 255 := by
  rw [rtake_length, samples_length hw.handed]

lemma step_grow (hw : f.IsWindow heap calls es) (hlt : calls.length < 255) {junk : Node ℚ}
    (hpick : c.mem.pick f.heap = some (a, junk)) :
    ∃ f', twCalcAverageRtt f c = .ret (f', [.malloc a]) ∧
      f'.IsWindow heap (calls ++ [c]) (es ++ [.malloc a]) := by
  have hdead := hw.dead (c.mem.fresh _ _ _ hpick)
  have hshort : ((samples calls es).rtake 255).length < 255 := by
    rw [hw.window_length]
    omega
  obtain ⟨f', hstep, hlists, hframe⟩ := twCalcAverageRtt_grow hw.lists hshort hpick
  have hwin : (samples (calls ++ [c]) (es ++ [.malloc a])).rtake 255 =
      (samples calls es).rtake 255 ++ [(a, c.currPktRtt)] := by
    rw [samples_snoc hw.handed rfl, rtake_snoc_of_lt]
    rw [samples_length hw.handed]
    exact hlt
  have hnone : calls.length - 255 = 0 := by omega
  have hsnoc : (calls ++ [c]).length = calls.length + 1 := List.length_append
  have hnone' : (calls ++ [c]).length - 255 = 0 := Nat.sub_eq_zero_of_le (hsnoc.trans_le hlt)
  refine ⟨f', hstep, ⟨handedOut_length_snoc hw.handed rfl, by rwa [hwin], ?_, ?_, ?_⟩⟩
  · rw [givenBack_append, hw.freed, hnone, hnone']
    rfl
  · rw [hwin]
    exact fresh_snoc hw.fresh hdead _
  · rw [hwin]
    intro b hb
    rw [hframe b hb]
    exact hw.unlisted b fun x hx => hb x (List.mem_append_left _ hx)

/-- The block that leaves the window is the oldest one not given back yet. -/
lemma oldest (hw : f.IsWindow heap calls es) {b : ℕ} {w : ℚ} {nodes : List (ℕ × ℚ)}
    (hwin : (samples calls es).rtake 255 = (b, w) :: nodes) :
    (handedOut es).take (calls.length - 255 + 1) = givenBack es ++ [b] := by
  have hdrop : (handedOut es).drop (calls.length - 255) = b :: nodes.map Prod.fst := by
    rw [← samples_fst hw.handed, ← List.map_drop, ← samples_length hw.handed]
    exact congrArg (List.map Prod.fst) hwin
  have hget : (handedOut es)[calls.length - 255]? = some b := by
    rw [← List.head?_drop, hdrop, List.head?_cons]
  rw [List.take_add_one, hget, hw.freed, Option.toList_some]

lemma step_slide (hw : f.IsWindow heap calls es) (hge : 255 ≤ calls.length) {junk : Node ℚ}
    (hpick : c.mem.pick f.heap = some (a, junk)) :
    ∃ f' b, twCalcAverageRtt f c = .ret (f', [.malloc a, .free (some b)]) ∧
      f'.IsWindow heap (calls ++ [c]) (es ++ [.malloc a, .free (some b)]) := by
  have hdead := hw.dead (c.mem.fresh _ _ _ hpick)
  have hlength := hw.window_length
  obtain ⟨⟨b, w⟩, nodes, hold⟩ : ∃ x nodes, (samples calls es).rtake 255 = x :: nodes := by
    refine List.exists_cons_of_length_pos ?_
    omega
  have hfull : nodes.length = 254 := by
    rw [hold, List.length_cons] at hlength
    omega
  obtain ⟨f', hstep, hlists, hgone, hframe⟩ := twCalcAverageRtt_slide (hold ▸ hw.lists) hfull hpick
  have hwin : (samples (calls ++ [c]) (es ++ [.malloc a, .free (some b)])).rtake 255 =
      nodes ++ [(a, c.currPktRtt)] := by
    rw [samples_snoc hw.handed rfl, rtake_snoc_of_le (by decide), hold, List.tail_cons]
    rwa [samples_length hw.handed]
  refine ⟨f', b, hstep, ⟨handedOut_length_snoc hw.handed rfl, by rwa [hwin], ?_, ?_, ?_⟩⟩
  · have hsnoc : (calls ++ [c]).length = calls.length + 1 := List.length_append
    have hcount : (calls ++ [c]).length - 255 = calls.length - 255 + 1 := by
      rw [hsnoc, Nat.sub_add_comm hge]
    rw [givenBack_append, handedOut_append, hcount, List.take_append_of_le_length, hw.oldest hold]
    · rfl
    · rw [hw.handed]
      omega
  · rw [hwin]
    exact fresh_snoc (fun x hx => hw.fresh x (hold ▸ List.mem_cons_of_mem _ hx)) hdead _
  · rw [hwin]
    intro x hx
    -- the block given back was dead at the start, the others have not changed
    by_cases hxb : x = b
    · rw [hxb, hgone, hw.fresh (b, w) (hold ▸ List.mem_cons_self)]
    · rw [hframe x hxb hx]
      refine hw.unlisted x fun y hy => ?_
      rw [hold] at hy
      rcases List.mem_cons.mp hy with rfl | hy
      · exact fun he => hxb he.symm
      · exact hx y (List.mem_append_left _ hy)

end RttFilter.IsWindow

/-- As long as every call gets a block, the filter lists the last 255 samples. -/
theorem twCalcAverageRtt_isWindow (heap : Heap (Node ℚ))
    (hmem : ∀ c ∈ calls, ∀ h, c.mem.pick h ≠ none) :
    ∃ f es, runOps twCalcAverageRtt (.start heap) calls = .ret (f, es) ∧
      f.IsWindow heap calls es := by
  have hlegal : EachCall twCalcAverageRtt (.start heap)
      (fun _ _ c => ∀ h, c.mem.pick h ≠ none) calls := eachCall_of_forall fun c hc _ _ => hmem c hc
  refine runOps_reaches (.init heap) (fun calls f es c hw hpick _ => ?_) hlegal
    (fun _ _ _ _ _ _ _ => trivial) List.prefix_rfl
  obtain ⟨⟨a, junk⟩, ha⟩ := Option.ne_none_iff_exists'.mp (hpick f.heap)
  rcases Nat.lt_or_ge calls.length 255 with hlt | hge
  · obtain ⟨f', hstep, hw'⟩ := hw.step_grow hlt ha
    exact ⟨f', _, hstep, hw'⟩
  · obtain ⟨f', b, hstep, hw'⟩ := hw.step_slide hge ha
    exact ⟨f', _, hstep, hw'⟩

/-- After any calls that get their blocks: the list from the root ends at the end pointer and
holds the last 255 samples in order, the block of every earlier one has been given back once,
and the running sum is that of the list. -/
theorem twCalcAverageRtt_window (heap : Heap (Node ℚ)) (calls : List RttCall)
    (hmem : ∀ c ∈ calls, ∀ h, c.mem.pick h ≠ none) :
    ∃ f es nodes, runOps twCalcAverageRtt (.start heap) calls = .ret (f, es) ∧
      LinkedQueue f.heap f.rootRttAverage f.endRttAverage nodes ∧
      nodes.map Prod.snd = (calls.map fun c => (c.timeClk.toNat / 255 : ℚ)).rtake 255 ∧
      f.averageListSize.toNat = min calls.length 255 ∧
      (handedOut es).length = calls.length ∧
      nodes.map Prod.fst = (handedOut es).rtake 255 ∧
      givenBack es = (handedOut es).take (calls.length - 255) ∧
      (∀ b, (∀ x ∈ nodes, x.1 ≠ b) → f.heap.cell b = heap.cell b) ∧
      f.averageRtt = (nodes.map Prod.snd).sum ∧
      (255 ≤ calls.length →
        f.averageRtt = ((calls.map fun c => (c.timeClk.toNat : ℚ)).rtake 255).sum / 255) := by
  obtain ⟨f, es, hrun, hw⟩ := twCalcAverageRtt_isWindow heap hmem
  have hvalues : ((samples calls es).rtake 255).map Prod.snd =
      (calls.map fun c => (c.timeClk.toNat / 255 : ℚ)).rtake 255 := by
    rw [map_rtake, samples_snd hw.handed]
    rfl
  refine ⟨f, es, _, hrun, hw.lists.queue, hvalues, ?_, hw.handed, ?_, hw.freed, hw.unlisted,
    hw.lists.sum, fun _ => ?_⟩
  · rw [hw.lists.size, hw.window_length]
  · rw [map_rtake, samples_fst hw.handed]
  · rw [hw.lists.sum, hvalues, ← map_rtake, ← map_rtake]
    simp only [div_eq_mul_inv, List.sum_map_mul_right]

def bumpRtt : Malloc (Node ℚ) := .bump ⟨0, none⟩

/-- One sample of 0 and 255 of 510: the first has left the window. -/
theorem twCalcAverageRtt_window_256 :
    ∃ f es, runOps twCalcAverageRtt (.start .empty)
        (⟨0, bumpRtt⟩ :: List.replicate 255 ⟨510, bumpRtt⟩) = .ret (f, es) ∧
      f.averageListSize.toNat = 255 ∧ (givenBack es).length = 1 ∧ f.averageRtt = 510 := by
  have hmem : ∀ c ∈ (⟨0, bumpRtt⟩ : RttCall) :: List.replicate 255 ⟨510, bumpRtt⟩,
      ∀ h, c.mem.pick h ≠ none := by
    intro c hc h
    have hbump : c.mem = bumpRtt := by
      rcases List.mem_cons.mp hc with rfl | hc
      · rfl
      · rw [List.eq_of_mem_replicate hc]
    rw [hbump]
    exact Option.some_ne_none _
  have hcalls : ((⟨0, bumpRtt⟩ : RttCall) :: List.replicate 255 ⟨510, bumpRtt⟩).length = 256 := by
    rw [List.length_cons, List.length_replicate]
  obtain ⟨f, es, nodes, hrun, -, -, hsize, hlen, -, hfreed, -, -, hmean⟩ :=
    twCalcAverageRtt_window .empty _ hmem
  rw [hcalls] at hsize hlen hfreed hmean
  refine ⟨f, es, hrun, hsize, by rw [hfreed, List.length_take, hlen]; rfl, ?_⟩
  rw [hmean (by decide), List.map_cons, List.map_replicate, List.rtake, List.length_cons,
    List.length_replicate, Nat.add_sub_cancel_left, List.drop_succ_cons, List.drop_zero,
    List.sum_replicate]
  have hvalue : (510 : UInt64).toNat = 510 := rfl
  norm_num [hvalue]

end Run
end Twister
