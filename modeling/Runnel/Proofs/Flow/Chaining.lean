import Mathlib.Logic.Function.Basic
import Runnel.Proofs.Flow.Staging

/-!
# Runnel.Proofs.Flow.Chaining

The stages of a pipeline with the channels between them.

* `Chain`: the stages.
* `Chain.streams`, `Chain.inputs`: the streams of each stage, and what it reads in the end.
* `Chain.assembly`: what is left to do while the channels are made.
* `Chain.Wired`: the channels, wherever the stages stand.
-/

namespace Runnel

open Activity Work

/-- Stages side by side, each of which reads the output of the one before. -/
structure Chain (ctx : Context) where
  /-- The stages. -/
  stages : List (CallStage ctx)
  /-- One stage alone is no pipeline. -/
  two : 2 ≤ stages.length
  /-- The streams of all of them together. -/
  io : Streams

namespace Chain

variable {ctx : Context} (c : Chain ctx)

/-- How many stages there are. -/
def size : Nat := c.stages.length

/-- The stage of a number. -/
def stage (k : Nat) : CallStage ctx :=
  c.stages.getD k (c.stages.get ⟨0, Nat.lt_of_lt_of_le Nat.zero_lt_two c.two⟩)

/-- The pipeline as a command. -/
def command : Command :=
  .pipeline (c.stages.map CallStage.command)

/-- The token is not set, and the names of all stages are known. -/
def Ready (m : Machine) : Prop :=
  ∀ k < c.size, (c.stage k).Ready m

/-- What a stage reads when the first one reads `first`. -/
def inputs (first : Bytes) : Nat → Bytes
  | 0 => first
  | k + 1 => ((c.stage k).output (inputs first k)).stdout

/-- The exit codes of all stages. -/
def codes (first : Bytes) : List Int :=
  (List.range c.size).map fun k => ((c.stage k).output (c.inputs first k)).code

/-! ## Streams -/

section

variable (link : Nat → ChannelId)

/-- Where a stage reads. Behind each stage but the last one there is a link. -/
def source : Nat → Source
  | 0 => c.io.stdin
  | k + 1 => .channel (link k)

/-- Where a stage writes. -/
def sink (k : Nat) : Sink :=
  if k + 1 < c.size then .channel (link k) .stdout else c.io.stdout

/-- The streams of a stage. -/
def streams (k : Nat) : Streams :=
  ⟨c.source link k, c.sink link k, c.io.stderr⟩

/-- What is left to do of a stage. -/
def branch (point : Nat → Point ctx) (k : Nat) : Work :=
  (c.stage k).work (c.streams link k) (point k)

/-- What is left to do of all stages. -/
def branches (point : Nat → Point ctx) : List Work :=
  (List.range c.size).map (c.branch link point)

/-- What has come of the stages so far. -/
def past (point : Nat → Point ctx) : List (List Happening) :=
  (List.range c.size).map fun k => (c.stage k).past (c.streams link k) (point k)

/-- What comes of the stages in all. -/
def happenings (first : Bytes) : List (List Happening) :=
  (List.range c.size).map fun k =>
    (c.stage k).happenings (c.streams link k) (c.inputs first k)

end

/-! ## Making the channels -/

/-- What follows the stages. -/
def joined (ctx : Context) (codes : List Int) : Work :=
  .done (pipelineCode ctx.settings.pipefail codes)
    (ctx.withStatus (pipelineCode ctx.settings.pipefail codes))

/-- What is left to do when so many channels have been made. -/
def assembly (link : Nat → ChannelId) (j : Nat) : Work :=
  connectStages ctx c.io.stdout c.io.stderr (fun branches => .together branches (joined ctx))
    (c.source link j) ((List.range j).map (c.branch link fun _ => .start)).reverse
    ((List.range' j (c.size - j)).map fun k => (c.stage k).command.activity)

theorem two_le_size : 2 ≤ c.size := c.two

theorem activities_map (stages : List (CallStage ctx)) :
    Command.activities (stages.map CallStage.command) = stages.map fun s => s.command.activity := by
  induction stages with
  | nil => rfl
  | cons s stages ih => rw [List.map_cons, Command.activities, ih, List.map_cons]

theorem map_stage {α : Type} (f : CallStage ctx → α) :
    (List.range c.size).map (fun k => f (c.stage k)) = c.stages.map f := by
  refine List.ext_getElem (by simp [size]) fun k hk hk' => ?_
  have hlt : k < c.stages.length := by simpa using hk'
  simp [stage, List.getElem?_eq_getElem hlt]

/-- Unless it is cancelled, a pipeline begins with its channels. -/
theorem activity_eq (link : Nat → ChannelId) :
    c.command.activity ctx c.io .done =
      .ask ctx.token fun cancelled =>
        if cancelled then releaseAll c.io (.done ctx.status ctx) else c.assembly link 0 := by
  have hstages : (List.range' 0 (c.size - 0)).map (fun k => (c.stage k).command.activity) =
      c.stages.map fun s => s.command.activity := by
    rw [Nat.sub_zero, ← List.range_eq_range']
    exact c.map_stage fun s => s.command.activity
  simp only [command, Command.activity, activities_map, guarded, assembly, hstages]
  rfl

variable {c} {link : Nat → ChannelId} {j : Nat}

theorem source_update {k : Nat} (hk : k ≤ j) (id : ChannelId) :
    c.source (Function.update link j id) k = c.source link k := by
  cases k with
  | zero => rfl
  | succ k => rw [source, source, Function.update_of_ne (by omega)]

/-- A channel that has been made later makes no difference. -/
theorem branch_update {k : Nat} (hk : k < j) (id : ChannelId) (point : Nat → Point ctx) :
    c.branch (Function.update link j id) point k = c.branch link point k := by
  have hsink : c.sink (Function.update link j id) k = c.sink link k := by
    rw [sink, sink, Function.update_of_ne (by omega)]
  rw [branch, branch, streams, streams, source_update (Nat.le_of_lt hk), hsink]

/-- Another channel is made. -/
theorem assembly_connect (hj : j + 1 < c.size) :
    c.assembly link j =
      .connect fun id =>
        .retain c.io.stderr (c.assembly (Function.update link j id) (j + 1)) := by
  obtain ⟨n, hn⟩ : ∃ n, c.size - j = n + 2 := ⟨c.size - j - 2, by omega⟩
  have hn' : c.size - (j + 1) = n + 1 := by omega
  simp only [assembly, hn, hn', List.range'_succ, List.map_cons, connectStages]
  congr 1
  funext id
  have hsource : c.source (Function.update link j id) (j + 1) = .channel id := by
    rw [source, Function.update_self]
  have hbranches : (List.range j).map (c.branch (Function.update link j id) fun _ => .start) =
      (List.range j).map (c.branch link fun _ => .start) :=
    List.map_congr_left fun k hk => branch_update (List.mem_range.mp hk) id _
  rw [List.range_succ, List.map_append, List.reverse_append, hbranches]
  simp only [branch, CallStage.work, streams, hsource, source_update (Nat.le_refl j), sink,
    if_pos hj, Function.update_self, List.map_cons, List.map_nil, List.reverse_singleton,
    List.singleton_append]

/-- All channels have been made. -/
theorem assembly_last (hj : j + 1 = c.size) :
    c.assembly link j = .together (c.branches link fun _ => .start) (joined ctx) := by
  have hn : c.size - j = 0 + 1 := by omega
  simp only [assembly, hn, List.range'_succ, List.map_cons, List.range'_zero, List.map_nil,
    connectStages]
  congr 1
  rw [branches, ← hj, List.range_succ, List.map_append, List.reverse_cons, List.reverse_reverse]
  simp only [branch, CallStage.work, streams, sink, hj, Nat.lt_irrefl, if_false, List.map_cons,
    List.map_nil]

/-! ## The channels, wherever the stages stand -/

/-- The first `j` links are channels that have been made since there were `base` of them, and they
are in `own`. Each of them holds what its two stages have made of it. -/
structure Wired (c : Chain ctx) (base : Nat) (own : List ChannelId) (link : Nat → ChannelId)
    (j : Nat) (point : Nat → Point ctx) (m : Machine) : Prop where
  base_le : base ≤ m.channels.size
  own_new : ∀ id ∈ own, base ≤ id
  mem_own : ∀ k < j, link k ∈ own
  lt_size : ∀ k < j, link k < m.channels.size
  injective : ∀ i < j, ∀ k < j, link i = link k → i = k
  linked : ∀ k < j, Link ((c.stage k).standing (point k))
    ((c.stage (k + 1)).standing (point (k + 1))) (m.channel (link k))

section

variable {base : Nat} {own : List ChannelId} {point : Nat → Point ctx} {m m' : Machine}

/-- No channel has been made yet. -/
theorem wired_zero (link : Nat → ChannelId) (point : Nat → Point ctx)
    (hbase : base ≤ m.channels.size) (hown : ∀ id ∈ own, base ≤ id) :
    c.Wired base own link 0 point m :=
  ⟨hbase, hown, nofun, nofun, nofun, nofun⟩

/-- The same links, with other channels. -/
theorem Wired.replace (h : c.Wired base own link j point m) {point' : Nat → Point ctx}
    (hsize : m.channels.size ≤ m'.channels.size)
    (hlinked : ∀ k < j, Link ((c.stage k).standing (point' k))
      ((c.stage (k + 1)).standing (point' (k + 1))) (m'.channel (link k))) :
    c.Wired base own link j point' m' where
  base_le := Nat.le_trans h.base_le hsize
  own_new := h.own_new
  mem_own := h.mem_own
  lt_size k hk := Nat.lt_of_lt_of_le (h.lt_size k hk) hsize
  injective := h.injective
  linked := hlinked

theorem Wired.base_le_link (h : c.Wired base own link j point m) {k : Nat} (hk : k < j) :
    base ≤ link k :=
  h.own_new _ (h.mem_own k hk)

/-- Others do not touch the links. -/
theorem Wired.spared (h : c.Wired base own link j point m) (hm : m.Spares own m') :
    c.Wired base own link j point m' :=
  h.replace hm.size fun k hk => by
    rw [hm.channel _ (h.mem_own k hk)]
    exact h.linked k hk

/-- What is done to older channels does not matter. -/
theorem Wired.touched (h : c.Wired base own link j point m) {P : ChannelId → Prop}
    (hm : Machine.Touches P m m') (hP : ∀ id, P id → id < base) :
    c.Wired base own link j point m' :=
  h.replace hm.size fun k hk => by
    rw [hm.others _ (h.lt_size k hk) fun hp =>
      absurd (hP _ hp) (Nat.not_lt_of_le (h.base_le_link hk))]
    exact h.linked k hk

/-- Another link is made. -/
theorem Wired.connect (h : c.Wired base own link j (fun _ => .start) m) :
    c.Wired base (own ++ [m.channels.size]) (Function.update link j m.channels.size) (j + 1)
      (fun _ => .start) (m.newChannel pipeCapacity).2 := by
  have hsize : (m.newChannel pipeCapacity).2.channels.size = m.channels.size + 1 := by
    simp [Machine.newChannel]
  have hlink : ∀ k < j, Function.update link j m.channels.size k = link k := fun k hk =>
    Function.update_of_ne (Nat.ne_of_lt hk) ..
  have hself : Function.update link j m.channels.size j = m.channels.size :=
    Function.update_self ..
  have hcases : ∀ k < j + 1, k < j ∨ k = j := fun k hk => by omega
  refine ⟨hsize ▸ Nat.le_succ_of_le h.base_le, ?_, ?_, ?_, ?_, ?_⟩
  · simp only [List.mem_append, List.mem_singleton]
    rintro id (hid | rfl)
    · exact h.own_new id hid
    · exact h.base_le
  · intro k hk
    rcases hcases k hk with hk | rfl
    · rw [hlink k hk]
      exact List.mem_append_left _ (h.mem_own k hk)
    · rw [hself]
      exact List.mem_append_right _ List.mem_cons_self
  · intro k hk
    rw [hsize]
    rcases hcases k hk with hk | rfl
    · rw [hlink k hk]
      exact Nat.lt_succ_of_lt (h.lt_size k hk)
    · rw [hself]
      exact Nat.lt_succ_self _
  · intro i hi k hk heq
    rcases hcases i hi with hi | rfl
    · rcases hcases k hk with hk | rfl
      · rw [hlink i hi, hlink k hk] at heq
        exact h.injective i hi k hk heq
      · rw [hlink i hi, hself] at heq
        exact absurd heq (Nat.ne_of_lt (h.lt_size i hi))
    · rcases hcases k hk with hk | rfl
      · rw [hlink k hk, hself] at heq
        exact absurd heq.symm (Nat.ne_of_lt (h.lt_size k hk))
      · rfl
  · intro k hk
    rcases hcases k hk with hk | rfl
    · rw [hlink k hk, (m.newChannel_touches (fun _ => False) pipeCapacity).others _
        (h.lt_size k hk) id]
      exact h.linked k hk
    · have hchannel : (m.newChannel pipeCapacity).2.channel m.channels.size =
          .ofCapacity pipeCapacity := by
        simp [Machine.newChannel, Machine.channel]
      rw [hself, hchannel]
      exact .ofCapacity (by decide) rfl rfl rfl rfl

/-! ### Who uses a link -/

theorem sink_ne {sink : Sink} {id : ChannelId} (h : sink.Within fun id => id < base)
    (hid : base ≤ id) : sink.channel? ≠ some id := by
  cases sink with
  | channel id' kind =>
    rintro ⟨⟩
    exact absurd h (Nat.not_lt_of_le hid)
  | file handle | discard => nofun

theorem source_ne {source : Source} {id : ChannelId} (h : source.Within fun id => id < base)
    (hid : base ≤ id) : source.channel? ≠ some id := by
  cases source with
  | channel id' =>
    rintro ⟨⟩
    exact absurd h (Nat.not_lt_of_le hid)
  | empty | inherited | bytes data => nofun

variable (hio : c.io.Within fun id => id < base) {i k : Nat}

include hio

/-- Nobody but the stage behind a link reads from it. -/
theorem Wired.source_ne (h : c.Wired base own link (c.size - 1) point m) (hi : i < c.size - 1)
    (hk : k < c.size) (hne : k ≠ i + 1) : (c.source link k).channel? ≠ some (link i) := by
  cases k with
  | zero => exact Chain.source_ne hio.stdin (h.base_le_link hi)
  | succ k =>
    intro heq
    have hki := h.injective k (by omega) i hi (Option.some.inj heq)
    omega

/-- Nobody but the stage in front of a link writes to it. -/
theorem Wired.sink_ne (h : c.Wired base own link (c.size - 1) point m) (hi : i < c.size - 1)
    (hne : k ≠ i) : (c.sink link k).channel? ≠ some (link i) := by
  rw [sink]
  split
  · intro heq
    exact hne (h.injective k (by omega) i hi (Option.some.inj heq))
  · exact Chain.sink_ne hio.stdout (h.base_le_link hi)

/-- A stage takes a step. -/
theorem Wired.step (h : c.Wired base own link (c.size - 1) point m) (hk : k < c.size) :
    c.Wired base own link (c.size - 1)
      (Function.update point k ((c.stage k).step (c.streams link k) (point k) m).2)
      ((c.stage k).step (c.streams link k) (point k) m).1 := by
  have hhandles := @CallStage.step_handles _ (c.stage k) (c.streams link k) (point k) m
  generalize (c.stage k).step (c.streams link k) (point k) m = r at hhandles
  obtain ⟨m', p⟩ := r
  have htouches := hhandles.touches
  refine h.replace htouches.size fun i hi => ?_
  have herr := Chain.sink_ne hio.stderr (h.base_le_link hi)
  have hlinked := h.linked i hi
  have hid := h.lt_size i hi
  by_cases hki : k = i
  · -- the link behind the stage
    subst hki
    have hout : (c.streams link k).stdout = .channel (link k) .stdout :=
      if_pos (show k + 1 < c.size by omega)
    rw [Function.update_self, Function.update_of_ne (by omega)]
    exact hhandles.link_writer hout (h.source_ne hio hi hk (by omega)) herr hid hlinked
  by_cases hki' : k = i + 1
  · -- the link in front of the stage
    subst hki'
    rw [Function.update_self, Function.update_of_ne (by omega)]
    exact hhandles.link_reader rfl (h.sink_ne hio hi (by omega)) herr hid hlinked
  · rw [Function.update_of_ne (Ne.symm hki), Function.update_of_ne (Ne.symm hki')]
    have hunused : ¬ (c.streams link k).Uses (link i) := by
      rintro (hin | hout | hmessages)
      · exact h.source_ne hio hi hk hki' hin
      · exact h.sink_ne hio hi hki hout
      · exact herr hmessages
    rw [htouches.others _ hid hunused]
    exact hlinked

end

end Chain
end Runnel
