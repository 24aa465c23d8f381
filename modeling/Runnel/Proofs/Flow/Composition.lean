import Runnel.Proofs.Flow.Composing

/-!
# Runnel.Proofs.Flow.Composition

A pipeline is the composition of its stages, whatever the order in which they take their steps.

* `Chain.delivered`, `Chain.messages`: what each stage hands back, and the chunks of its messages.
* `Chain.Composed`: what has come of a pipeline in the end.
* `Chain.composes`: each run of a pipeline can go on to its end, where it is composed.
-/

namespace Runnel

open Activity Work

/-! ## The exit code -/

/-- Without `pipefail` the last stage counts. -/
theorem pipelineCode_eq_last (f : Nat → Int) {n : Nat} (hn : 0 < n) :
    pipelineCode false ((List.range n).map f) = f (n - 1) := by
  obtain ⟨n, rfl⟩ := Nat.exists_eq_succ_of_ne_zero (Nat.ne_of_gt hn)
  simp [pipelineCode, List.range_succ]

/-- With `pipefail` the rightmost stage that has failed counts. -/
theorem pipelineCode_eq_rightmost (f : Nat → Int) (n : Nat) :
    (∃ k < n, pipelineCode true ((List.range n).map f) = f k ∧ f k ≠ 0 ∧
        ∀ j < n, k < j → f j = 0) ∨
      pipelineCode true ((List.range n).map f) = 0 ∧ ∀ k < n, f k = 0 := by
  induction n with
  | zero => exact .inr ⟨rfl, nofun⟩
  | succ n ih =>
    have hsucc : pipelineCode true ((List.range (n + 1)).map f) =
        if f n ≠ 0 then f n else pipelineCode true ((List.range n).map f) := by
      simp only [pipelineCode, List.range_succ, List.map_append, List.map_cons, List.map_nil,
        List.reverse_append, List.reverse_singleton, List.singleton_append, List.find?_cons,
        if_true]
      by_cases h : f n = 0
      · simp [h]
      · have hne : (f n != 0) = true := by simpa using h
        simp [hne, h]
    rw [hsucc]
    by_cases h : f n = 0
    · rw [if_neg (not_not_intro h)]
      rcases ih with ⟨k, hk, hcode, hne, hlater⟩ | ⟨hcode, hall⟩
      · refine .inl ⟨k, Nat.lt_succ_of_lt hk, hcode, hne, fun j hj hkj => ?_⟩
        rcases Nat.lt_succ_iff_lt_or_eq.mp hj with hj | rfl
        · exact hlater j hj hkj
        · exact h
      · refine .inr ⟨hcode, fun k hk => ?_⟩
        rcases Nat.lt_succ_iff_lt_or_eq.mp hk with hk | rfl
        · exact hall k hk
        · exact h
    · rw [if_pos h]
      exact .inl ⟨n, Nat.lt_succ_self n, rfl, h, fun j hj hkj => absurd hkj (by omega)⟩

/-! ## What is written -/

variable {ctx : Context}

/-- The chunks of the messages of a stage when its input is this. -/
def CallStage.messages (s : CallStage ctx) (input : Bytes) : List Bytes :=
  (if ctx.settings.xtrace then chunks s.trace else []) ++ chunks (s.output input).stderr

/-- What a stage writes to a sink. -/
theorem CallStage.flatMap_onto_happenings (s : CallStage ctx) (io : Streams) (input : Bytes)
    (sink : Sink) (hne : ¬ (io.stdout = sink ∧ io.stderr = sink)) :
    (s.happenings io input).flatMap (Happening.onto sink) =
      if io.stdout = sink then chunks (s.output input).stdout
      else if io.stderr = sink then s.messages input else [] := by
  have htraced : (s.traced io).flatMap (Happening.onto sink) =
      if io.stderr = sink then if ctx.settings.xtrace then chunks s.trace else [] else [] := by
    unfold traced
    split
    · exact flatMap_onto_writing ..
    · simp
  simp only [happenings, calledWith, List.flatMap_append, htraced, flatMap_onto_writing, messages,
    List.flatMap_cons, List.flatMap_nil, Happening.onto]
  by_cases hout : io.stdout = sink
  · have herr : io.stderr ≠ sink := fun h => hne ⟨hout, h⟩
    simp [hout, herr]
  · by_cases herr : io.stderr = sink
    · simp [hout, herr]
    · simp [hout, herr]

namespace Chain

variable (c : Chain ctx)

/-- What the stage of a number hands back when the first one reads `first`. -/
def delivered (first : Bytes) (k : Nat) : Output :=
  (c.stage k).output (c.inputs first k)

/-- The chunks of the messages of each stage. -/
def messages (first : Bytes) : List (List Bytes) :=
  (List.range c.size).map fun k => (c.stage k).messages (c.inputs first k)

/-- What has come of a pipeline that has ended with a code, when its first stage has read `first`
and there were `base` channels before. -/
structure Composed (base : Nat) (first : Bytes) (xs : List Exchange) (code : Int) : Prop where
  /-- Between the stages are new channels, each of them another one. Each stage has read what the
  one before it had written, was called with it, and has written what the call handed back, in this
  order. -/
  linked : ∃ link : Nat → ChannelId, (∀ k, k + 1 < c.size → base ≤ link k) ∧
    (∀ i k, i + 1 < c.size → k + 1 < c.size → link i = link k → i = k) ∧
    Interleaves (c.happenings link first) (Work.happenings xs)
  /-- The output is that of the last stage. -/
  output : c.io.stdout ≠ c.io.stderr →
    (Work.happenings xs).flatMap (Happening.onto c.io.stdout) =
      chunks (c.delivered first (c.size - 1)).stdout
  /-- The messages are those of all stages. -/
  messages : c.io.stdout ≠ c.io.stderr →
    Interleaves (c.messages first) ((Work.happenings xs).flatMap (Happening.onto c.io.stderr))
  /-- The exit code is that of the last stage. -/
  last : ctx.settings.pipefail = false → code = (c.delivered first (c.size - 1)).code
  /-- With `pipefail` it is that of the rightmost stage that has failed. -/
  rightmost : ctx.settings.pipefail = true →
    (∃ k < c.size, code = (c.delivered first k).code ∧ (c.delivered first k).code ≠ 0 ∧
        ∀ j < c.size, k < j → (c.delivered first j).code = 0) ∨
      code = 0 ∧ ∀ k < c.size, (c.delivered first k).code = 0

variable {c} {base : Nat} {link : Nat → ChannelId} {first : Bytes} {es : List Happening}

/-- What all stages write to a sink. -/
theorem map_flatMap_onto (sink : Sink) (f : Nat → List Bytes)
    (h : ∀ k < c.size, ((c.stage k).happenings (c.streams link k) (c.inputs first k)).flatMap
      (Happening.onto sink) = f k) :
    ((c.happenings link first).map fun part => part.flatMap (Happening.onto sink)) =
      (List.range c.size).map f := by
  rw [happenings, List.map_map]
  exact List.map_congr_left fun k hk => h k (List.mem_range.mp hk)

/-- A link is no other sink of the pipeline. -/
theorem sink_of_lt (hnew : ∀ k, k + 1 < c.size → base ≤ link k) {sink : Sink}
    (hsink : sink.Within fun id => id < base) {k : Nat} (hk : k + 1 < c.size) :
    (c.streams link k).stdout ≠ sink := by
  show c.sink link k ≠ sink
  rw [Chain.sink, if_pos hk]
  rintro rfl
  exact absurd hsink (Nat.not_lt_of_le (hnew k hk))

theorem sink_of_last (link : Nat → ChannelId) {k : Nat} (hk : ¬ k + 1 < c.size) :
    (c.streams link k).stdout = c.io.stdout := by
  show c.sink link k = c.io.stdout
  rw [Chain.sink, if_neg hk]

/-- Only the last stage writes to the output. -/
theorem output_of_interleaves (hio : c.io.Within fun id => id < base)
    (hnew : ∀ k, k + 1 < c.size → base ≤ link k) (hes : Interleaves (c.happenings link first) es)
    (hne : c.io.stdout ≠ c.io.stderr) :
    es.flatMap (Happening.onto c.io.stdout) = chunks (c.delivered first (c.size - 1)).stdout := by
  have hsize := c.two_le_size
  have hparts := hes.flatMap (Happening.onto c.io.stdout)
  rw [map_flatMap_onto c.io.stdout fun k =>
    if k + 1 < c.size then [] else chunks (c.delivered first k).stdout] at hparts
  · rw [hparts.eq_of_forall_ne (c.size - 1), getD_map_range, if_pos (by omega), if_neg (by omega)]
    intro j hj
    rw [getD_map_range]
    split
    · rw [if_pos (by omega)]
    · rfl
  · intro k hk
    have herr : (c.streams link k).stderr ≠ c.io.stdout := hne.symm
    rw [CallStage.flatMap_onto_happenings _ _ _ _ fun h => herr h.2, if_neg herr]
    by_cases hlast : k + 1 < c.size
    · rw [if_neg (sink_of_lt hnew hio.stdout hlast), if_pos hlast]
    · rw [if_pos (sink_of_last link hlast), if_neg hlast]
      rfl

/-- All stages write to the messages. -/
theorem messages_of_interleaves (hio : c.io.Within fun id => id < base)
    (hnew : ∀ k, k + 1 < c.size → base ≤ link k) (hes : Interleaves (c.happenings link first) es)
    (hne : c.io.stdout ≠ c.io.stderr) :
    Interleaves (c.messages first) (es.flatMap (Happening.onto c.io.stderr)) := by
  have hparts := hes.flatMap (Happening.onto c.io.stderr)
  rw [map_flatMap_onto c.io.stderr fun k => (c.stage k).messages (c.inputs first k)] at hparts
  · exact hparts
  · intro k hk
    have hout : (c.streams link k).stdout ≠ c.io.stderr := by
      by_cases hlast : k + 1 < c.size
      · exact sink_of_lt hnew hio.stderr hlast
      · rw [sink_of_last link hlast]
        exact hne
    rw [CallStage.flatMap_onto_happenings _ _ _ _ fun h => hout h.1, if_neg hout]
    exact if_pos rfl

/-- A pipeline that has ended is composed. -/
theorem Position.composed {own : List ChannelId} {m : Machine} {drawn : Bytes} {w : Work}
    {xs : List Exchange} (hio : c.io.Within fun id => id < base)
    (h : c.Position base own m (Work.happenings xs) drawn w) (hw : w.isComplete = true) :
    ∃ code, w = .done code (ctx.withStatus code) ∧
      c.Composed base (c.io.stdin.input drawn) xs code := by
  generalize hxs : Work.happenings xs = es at h
  cases h with
  | start =>
    rw [c.activity_eq fun _ => 0] at hw
    cases hw
  | connecting j hj =>
    rw [assembly_connect hj] at hw
    cases hw
  | retaining | flowing => cases hw
  | ended hnew hdistinct hes =>
    subst hxs
    refine ⟨_, rfl, ⟨_, hnew, hdistinct, hes⟩, output_of_interleaves hio hnew hes,
      messages_of_interleaves hio hnew hes, fun hpipefail => ?_, fun hpipefail => ?_⟩
    · rw [code, hpipefail]
      exact pipelineCode_eq_last _ (Nat.lt_of_lt_of_le Nat.zero_lt_two c.two_le_size)
    · rw [code, hpipefail]
      exact pipelineCode_eq_rightmost _ c.size

/-- A pipeline of commands that stand for calls, of which nobody but its stages uses the channels
that it makes, and which is not cancelled. Whatever has been done so far, it can come to its end,
and wherever it has come to its end, it has composed what its stages do. -/
theorem composes (c : Chain ctx) {m : Machine} {xs : List Exchange} {w : Work}
    (hio : c.io.Within fun id => id < m.channels.size) (hm : c.Ready m)
    (hruns : Runs (c.command.activity ctx c.io .done) xs w) (hprivate : Private [] m xs)
    (hready : ∀ x ∈ xs, c.Ready x.before) :
    (∃ ys w', Runs w ys w' ∧ w'.isComplete = true ∧ Private [] m (xs ++ ys) ∧
        ∀ y ∈ ys, c.Ready y.before) ∧
      (w.isComplete = true → ∃ code, w = .done code (ctx.withStatus code) ∧
        c.Composed m.channels.size (c.io.stdin.input (drawn c.io.stdin xs)) xs code) := by
  have hstart : c.Position m.channels.size [] m [] [] (c.command.activity ctx c.io .done) :=
    .start (Nat.le_refl _) nofun
  obtain ⟨own, m', hposition, hm', hmore⟩ := hstart.run hio hruns hprivate hm hready
  refine ⟨?_, hposition.composed hio⟩
  obtain ⟨ys, w', hys, hcomplete, hown, hyready⟩ := hposition.completes hio hm'
  exact ⟨ys, w', hys, hcomplete, hmore ys hown, hyready⟩

/-! ### An example -/

namespace Failing

/-- After a command with code 7. -/
def context : Context :=
  ⟨"/", [], 7, { Settings.off with pipefail := true }, true, ⟨"/bin/sh", ["-c"]⟩, 0, 0⟩

/-- Writes its input and its directory, changes the directory, and fails as the command before. -/
def enter (i : Invocation) : Outcome :=
  .done ⟨Text.encode (i.stdin ++ i.cwd), [33], i.status, some "/tmp"⟩

/-- Writes its input and its directory. -/
def cat (i : Invocation) : Outcome :=
  .done (.ofText (i.stdin ++ i.cwd))

/-- A stage without arguments. -/
def stage (name : String) (behaviour : Invocation → Outcome)
    (h : context.expandAll [⟨[.literal name], false⟩] = .ok [name]) : CallStage context :=
  ⟨⟨[.literal name], false⟩, [], name, [], ⟨fun _ => .everything, fun i d => (behaviour i, d)⟩,
    behaviour, rfl, h, rfl, fun _ _ => rfl⟩

/-- Both of them, one behind the other. -/
def chain : Chain context :=
  ⟨[stage "enter" enter rfl, stage "cat" cat rfl], by decide,
    ⟨.bytes [97], .channel 0 .stdout, .channel 0 .stderr⟩⟩

/-- A machine that knows their names and has a channel. -/
def machine : Machine :=
  ((Machine.ofDisk .empty (Registry.empty.registerAll 0
    [("enter", .pure enter), ("cat", .pure cat)])).newChannel 4).2.beginTurn

/-- One turn runs both stages. -/
theorem advance_eq :
    ((chain.command.activity context chain.io .done).advance machine).2 = .done 7 context := by
  simp only [chain, stage, command, CallStage.command, Command.activity, Command.activities,
    List.map_cons, List.map_nil]
  with_unfolding_all rfl

/-- The second stage starts where the pipeline has started. -/
theorem stdout_delivered : (chain.delivered [97] 1).stdout = [97, 47, 47] := by
  with_unfolding_all rfl

theorem ready : chain.Ready machine
  | 0, _ => ⟨rfl, rfl⟩
  | 1, _ => ⟨rfl, rfl⟩

end Failing

/-- The first stage changes its directory and fails, which the second one does not notice. -/
theorem composes_failing :
    ∃ xs, Runs (Failing.chain.command.activity Failing.context Failing.chain.io .done) xs
        (.done 7 Failing.context) ∧
      (Work.happenings xs).flatMap (Happening.onto (.channel 0 .stdout)) = [[97, 47, 47]] ∧
      Failing.chain.Composed Failing.machine.channels.size [97] xs 7 := by
  obtain ⟨xs, hruns, hlinked⟩ := advance_runs
    (Failing.chain.command.activity Failing.context Failing.chain.io .done) Failing.machine
  rw [Failing.advance_eq] at hruns
  obtain ⟨-, hcomposed⟩ := Failing.chain.composes (m := Failing.machine)
    ⟨trivial, Nat.zero_lt_one, Nat.zero_lt_one⟩ Failing.ready hruns (hlinked.private [])
    fun x hx => ready_of_keeps Failing.ready (hruns.keeps hlinked x hx)
  obtain ⟨code, hcode, hcomposed⟩ := hcomposed rfl
  obtain ⟨rfl, -⟩ := Work.done.inj hcode
  replace hcomposed : Failing.chain.Composed Failing.machine.channels.size [97] xs 7 := hcomposed
  have houtput := hcomposed.output (by decide)
  rw [show Failing.chain.size - 1 = 1 from rfl, Failing.stdout_delivered] at houtput
  exact ⟨xs, hruns, houtput, hcomposed⟩

end Chain
end Runnel
