import Runnel.Proofs.Flow.Serving

/-!
# Runnel.Proofs.Flow.Happenings

What comes of the exchanges of a run, in the order in which it comes, and who else may be at work in
between.

* `Work.Happening`, `Work.happenings`: what is written, what is read, and which calls are made.
* `Work.Exchange.drawn`: what a reader takes from a channel.
* `Work.Interleaves`: several lists side by side, each in its own order.
* `Work.Private`: nobody else uses the channels that are made in a run.
-/

namespace Runnel

/-- The bytes in a channel. -/
def Channel.contents (c : Channel) : Bytes :=
  c.queue.flatMap Chunk.data

namespace Work

/-- What comes of a request. -/
inductive Happening where
  /-- A chunk was handed over. -/
  | wrote (sink : Sink) (data : Bytes)
  /-- All input was read. -/
  | received (source : Source) (data : Bytes)
  /-- A command was called. -/
  | called (c : Call) (i : Invocation)

/-- Output as chunks. No bytes are no chunk. -/
def chunks (data : Bytes) : List Bytes :=
  if data.isEmpty then [] else [data]

/-- What comes of writing. -/
def writing (sink : Sink) (data : Bytes) : List Happening :=
  (chunks data).map (.wrote sink)

/-- What came of an exchange. A request that was not answered comes to nothing yet. -/
def Exchange.happenings (x : Exchange) : List Happening :=
  match x.request with
  | .write ticket sink data =>
    match x.before.write sink ticket data with
    | (_, .delivered _) => writing sink data
    | (_, .held _) => []
  | .read source lines gathered =>
    match x.before.gather source lines gathered with
    | (_, bytes, true) => [.received source bytes]
    | (_, _, false) => []
  | .call c i => [.called c i]
  | _ => []

/-- What came of some exchanges. -/
def happenings (xs : List Exchange) : List Happening :=
  xs.flatMap Exchange.happenings

/-- What was handed over there. -/
def Happening.onto (sink : Sink) : Happening → List Bytes
  | .wrote there data => if there = sink then [data] else []
  | _ => []

theorem flatMap_onto_writing (there sink : Sink) (data : Bytes) :
    (writing there data).flatMap (Happening.onto sink) =
      if there = sink then chunks data else [] := by
  rw [writing, List.flatMap_map]
  by_cases h : there = sink
  · simp [Happening.onto, h]
  · simp [Happening.onto, h]

/-- What the reader of a source took from it. Without a channel, nothing has to be taken. -/
def Exchange.drawn (source : Source) (x : Exchange) : Bytes :=
  match source, x.request with
  | .channel id, .read (.channel there) none _ =>
    if there = id then
      (x.before.channel id).contents.take
        ((x.before.channel id).contents.length - (x.after.channel id).contents.length)
    else []
  | _, _ => []

/-- What the reader of a source took from it in all. -/
def drawn (source : Source) (xs : List Exchange) : Bytes :=
  xs.flatMap (Exchange.drawn source)

theorem Exchange.drawn_eq_nil {source : Source} {x : Exchange}
    (h : ∀ lines gathered, x.request ≠ .read source lines gathered) : x.drawn source = [] := by
  unfold Exchange.drawn
  split
  · rename_i hr
    split
    · rename_i hid
      rw [hid] at hr
      exact absurd hr (h _ _)
    · rfl
  · rfl

/-! ## Interleaving -/

section

variable {α β : Type}

/-- What has this tag. -/
def withTag (k : Nat) (tagged : List (Nat × α)) : List α :=
  (tagged.filter fun t => t.1 == k).map Prod.snd

/-- The list is made of the others, each of which is in it in its own order. -/
def Interleaves (parts : List (List α)) (whole : List α) : Prop :=
  ∃ tagged : List (Nat × α), tagged.map Prod.snd = whole ∧
    ∀ k, withTag k tagged = parts.getD k []

theorem withTag_append (k : Nat) (tagged more : List (Nat × α)) :
    withTag k (tagged ++ more) = withTag k tagged ++ withTag k more := by
  simp [withTag]

theorem withTag_map (j k : Nat) (more : List α) :
    withTag k (more.map fun a => (j, a)) = if k = j then more else [] := by
  by_cases h : k = j
  · subst h
    simp [withTag, List.filter_map, Function.comp_def]
  · have hne : ¬ j = k := Ne.symm h
    simp [withTag, List.filter_map, Function.comp_def, h, hne]

theorem withTag_flatMap (k : Nat) (f : α → List β) (tagged : List (Nat × α)) :
    withTag k (tagged.flatMap fun t => (f t.2).map fun b => (t.1, b)) =
      (withTag k tagged).flatMap f := by
  induction tagged with
  | nil => rfl
  | cons t tagged ih =>
    have hcons : withTag k (t :: tagged) = withTag k [t] ++ withTag k tagged :=
      withTag_append k [t] tagged
    have hone : withTag k [t] = if k = t.1 then [t.2] else [] := withTag_map t.1 k [t.2]
    rw [List.flatMap_cons, withTag_append, withTag_map, ih, hcons, List.flatMap_append, hone]
    split
    all_goals simp

namespace Interleaves

variable {parts parts' : List (List α)} {whole : List α}

theorem nil (h : ∀ k, parts.getD k [] = []) : Interleaves parts [] :=
  ⟨[], rfl, fun k => (h k).symm⟩

/-- One of the lists grows. -/
theorem append (h : Interleaves parts whole) (k : Nat) (more : List α)
    (hsame : ∀ j ≠ k, parts'.getD j [] = parts.getD j [])
    (hmore : parts'.getD k [] = parts.getD k [] ++ more) :
    Interleaves parts' (whole ++ more) := by
  obtain ⟨tagged, rfl, hparts⟩ := h
  refine ⟨tagged ++ more.map fun a => (k, a), by simp [Function.comp_def], fun j => ?_⟩
  rw [withTag_append, withTag_map, hparts]
  by_cases hj : j = k
  · subst hj
    rw [if_pos rfl, hmore]
  · rw [if_neg hj, List.append_nil, hsame j hj]

/-- Each element may stand for others. -/
theorem flatMap (h : Interleaves parts whole) (f : α → List β) :
    Interleaves (parts.map fun part => part.flatMap f) (whole.flatMap f) := by
  obtain ⟨tagged, rfl, hparts⟩ := h
  refine ⟨tagged.flatMap fun t => (f t.2).map fun b => (t.1, b), ?_, fun k => ?_⟩
  · simp [List.map_flatMap, List.flatMap_map, Function.comp_def]
  · have hmap : (parts.map fun part => part.flatMap f).getD k [] = (parts.getD k []).flatMap f := by
      simp only [List.getD_eq_getElem?_getD, List.getElem?_map]
      cases parts[k]? <;> simp
    rw [hmap, ← hparts, withTag_flatMap]

/-- If only one of the lists has elements, it is the whole. -/
theorem eq_of_forall_ne (h : Interleaves parts whole) (k : Nat)
    (hnil : ∀ j ≠ k, parts.getD j [] = []) : whole = parts.getD k [] := by
  obtain ⟨tagged, rfl, hparts⟩ := h
  have htag : ∀ t ∈ tagged, (t.1 == k) = true := by
    intro t ht
    refine Bool.of_not_eq_false fun hne => ?_
    have hmem : t.2 ∈ withTag t.1 tagged :=
      List.mem_map_of_mem (List.mem_filter.mpr ⟨ht, by simp⟩)
    rw [hparts, hnil t.1 (by simpa using hne)] at hmem
    cases hmem
  rw [← hparts, withTag, List.filter_eq_self.mpr htag]

end Interleaves

end

/-! ## Who else is at work -/

/-- The channels that are made in an exchange. -/
def Exchange.made (x : Exchange) : List ChannelId :=
  match x.request with
  | .connect => [x.before.channels.size]
  | _ => []

end Work

/-- Others have left these channels alone, and no channel has gone. -/
structure Machine.Spares (own : List ChannelId) (m m' : Machine) : Prop where
  size : m.channels.size ≤ m'.channels.size
  channel : ∀ id ∈ own, m'.channel id = m.channel id

theorem Machine.Spares.refl (own : List ChannelId) (m : Machine) : m.Spares own m :=
  ⟨Nat.le_refl _, fun _ _ => rfl⟩

namespace Work

/-- From this machine on, others leave these channels alone, and those that are made in the
exchanges. With everything else they may do what they like between one exchange and the next. -/
def Private : List ChannelId → Machine → List Exchange → Prop
  | _, _, [] => True
  | own, m, x :: xs => m.Spares own x.before ∧ Private (own ++ x.made) x.after xs

theorem Linked.private {m m' : Machine} {xs : List Exchange} (h : Linked m xs m')
    (own : List ChannelId) : Private own m xs := by
  induction xs generalizing m own with
  | nil => trivial
  | cons x xs ih =>
    obtain ⟨rfl, h⟩ := h
    exact ⟨.refl own _, ih h _⟩

end Work
end Runnel
