import Runnel.Proofs.Runner.Moves

/-!
# Runnel.Proofs.Runner.Verdicts

The exit codes of pipes of pipes. A pipe knows the codes of its two stages and the switches that were
set when it began; of a chain of runners it selects the code that a pipeline of as many commands does.

* `System.Judges`: what may become of results, and of what they come from.
* `System.Obeys`: a pipe has the code that it should have if the switch stands so.
* `System.Chained`: runners that are joined from left to right.
* `System.code_of_chained`: the code of the last pipe of a chain is that of a pipeline.
-/

namespace Runnel.System

/-! ## Acts -/

/-- Two states of a runner in which its result is the same, and what it comes from. -/
structure SameVerdict (x y : Runner) : Prop where
  phase : y.phase = x.phase
  result : y.result = x.result
  settings : y.settings = x.settings

theorem SameVerdict.refl (x : Runner) : SameVerdict x x :=
  ⟨rfl, rfl, rfl⟩

/-- What may become of results, and of what they come from: the switches of a runner are those that
are set when it begins, and its result is the right one unless it has been killed. -/
structure Judges (s s' : System) : Prop where
  tokens : ∀ t, s.machine.isSet t = true → s'.machine.isSet t = true
  switches : s'.shell.settings = s.shell.settings
  fresh : ∀ r < s'.runners.size, s.runners.size ≤ r → (s'.runner r).phase = .pending
  kept : ∀ r < s.runners.size, ∀ x, (s.runner r).result = some x → (s'.runner r).result = some x
  settings : ∀ r < s.runners.size, (s.runner r).phase ≠ .pending →
    (s'.runner r).settings = (s.runner r).settings
  begins : ∀ r < s.runners.size, (s.runner r).phase = .pending → (s'.runner r).phase ≠ .pending →
    s'.machine.isSet (s.runner r).token = true ∨ (s'.runner r).settings = s.shell.settings
  ends : ∀ r < s.runners.size, (s.runner r).result = none → ∀ x, (s'.runner r).result = some x →
    s'.machine.isSet (s.runner r).token = true ∨ s.Concludes r x.code

section

variable {R : StreamId → Prop} {D : Loads} {s s' : System} {r : RunnerId}

theorem Judges.of_same (tokens : ∀ t, s.machine.isSet t = true → s'.machine.isSet t = true)
    (switches : s'.shell.settings = s.shell.settings) (size : s'.runners.size = s.runners.size)
    (same : ∀ r < s.runners.size, SameVerdict (s.runner r) (s'.runner r)) : Judges s s' where
  tokens := tokens
  switches := switches
  fresh := fun r hr hle => absurd (size ▸ hr) (Nat.not_lt.mpr hle)
  kept := fun r hr x hx => (same r hr).result.trans hx
  settings := fun r hr _ => (same r hr).settings
  begins := fun r hr hp hnot => absurd ((same r hr).phase.trans hp) hnot
  ends := by
    intro r hr hnone x hx
    rw [(same r hr).result, hnone] at hx
    cases hx

/-- Only channels change. -/
theorem ChannelsOnly.judges (h : ChannelsOnly s s') : Judges s s' :=
  .of_same (fun t ht => (h.isSet t).trans ht) (by rw [h.shell]) (by rw [h.runners])
    fun r _ => by rw [h.runner]; exact .refl _

theorem Aside.judges (h : Aside s s') : Judges s s' where
  tokens := h.tokens
  switches := h.switches
  fresh := fun r hr hle => absurd (h.size ▸ hr) (Nat.not_lt.mpr hle)
  kept := fun r _ x hx => (h.runner r).result.trans hx
  settings := fun r _ => (h.runner r).settings
  begins := fun r _ hp hnot => .inr ((h.runner r).begins hp hnot)
  ends := by
    intro r _ hnone x hx
    rw [(h.runner r).result, hnone] at hx
    cases hx

theorem judges_record (hs : Sound D s) (code : Int) (hr : r < s.runners.size)
    (hnot : (s.runner r).phase ≠ .finished)
    (hcode : s.machine.isSet (s.runner r).token = true ∨ s.Concludes r code) :
    Judges s (s.record r code) := by
  have hlet := ChannelsOnly.of_letGo s r
  have hself := runner_record_self hr code
  have hset : ∀ t, (s.record r code).machine.isSet t = s.machine.isSet t := hlet.isSet
  have hnone : (s.runner r).result = none := by
    refine Option.eq_none_iff_forall_ne_some.mpr fun x hx => hnot ?_
    exact (hs.inv.runners r hr).result_iff.mp (by rw [hx]; rfl)
  refine ⟨fun t ht => (hset t).trans ht, by rw [record, updateRunner, hlet.shell],
    fun r' hr' hle => ?_, fun r' hr' x hx => ?_, fun r' hr' hbegun => ?_, fun r' hr' hp hnot' => ?_,
    fun r' hr' hnone' x hx => ?_⟩
  · rw [size_record] at hr'
    exact absurd hr' (Nat.not_lt.mpr hle)
  · by_cases heq : r' = r
    · rw [heq, hnone] at hx
      cases hx
    · rw [runner_record_of_ne s heq, hx]
  · by_cases heq : r' = r
    · rw [heq, hself]
      rfl
    · rw [runner_record_of_ne s heq]
  · by_cases heq : r' = r
    · subst heq
      rcases hcode with hset' | hcode
      · exact .inl ((hset _).trans hset')
      · exact absurd hp hcode.begun.phase
    · rw [runner_record_of_ne s heq] at hnot'
      exact absurd hp hnot'
  · by_cases heq : r' = r
    · subst heq
      rw [hself] at hx
      cases hx
      exact hcode.imp_left (hset _).trans
    · rw [runner_record_of_ne s heq, hnone'] at hx
      cases hx

theorem judges_capture (s : System) (r : RunnerId) (chunk : Chunk) :
    Judges s (s.captured r chunk) := by
  have hadd := ChannelsOnly.of_addWriters (s.noted r chunk) (s.runner r).subscribers
  have hnoted := noted_noted s r chunk
  have hshell : (s.noted r chunk).shell = s.shell := by
    obtain ⟨terminal, heq | ⟨-, heq⟩⟩ := noted_cases s r chunk
    · rw [heq]
    · rw [heq]
      rfl
  refine .of_same (fun t ht => ?_) ?_ ?_ fun r' _ => ?_
  · rw [captured, hadd.isSet, hnoted.machine]
    exact ht
  · rw [captured, hadd.shell, hshell]
  · rw [captured, hadd.runners, hnoted.size]
  · obtain ⟨chunks, heq⟩ := hnoted.runner r'
    rw [captured, hadd.runner, heq]
    exact ⟨rfl, rfl, rfl⟩

theorem judges_forget (s : System) (r : RunnerId) : Judges s (s.forgetClosed r) := by
  have hdrop := ChannelsOnly.of_dropSubscribers s
    ((s.runner r).subscribers.filter fun id => !(s.machine.channel id).hasReader)
  refine .of_same (fun t ht => (hdrop.isSet t).trans ht) ?_ ?_ fun r' _ => ?_
  · exact congrArg Shell.settings hdrop.shell
  · rw [forgetClosed, size_updateRunner, hdrop.runners]
  · rw [forgetClosed, runner_updateRunner, hdrop.runner, hdrop.runner]
    split
    · rename_i hand
      rw [hand.1]
      exact ⟨rfl, rfl, rfl⟩
    · exact .refl _

theorem judges_read (s : System) (id : StreamId) : Judges s (s.readStream id).1 := by
  have hframe := frame_readStream s id
  refine .of_same (fun t ht => ?_) ?_ (by rw [hframe.runners]) fun r' _ => ?_
  · rcases readStream_cases s id with ⟨-, heq⟩ | ⟨-, ⟨_, _, -, heq⟩ | ⟨-, machine, taken, htake, heq⟩⟩
    · rw [heq]
      exact ht
    · rw [heq]
      exact ht
    · obtain ⟨hpassed, -⟩ := Machine.take_passes htake
      have hset : machine.isSet t = true := by
        rw [Machine.isSet, hpassed.tokens]
        exact ht
      rw [heq]
      dsimp only
      split
      · exact hset
      · exact hset
  · rcases readStream_cases s id with ⟨-, heq⟩ | ⟨-, ⟨_, _, -, heq⟩ | ⟨-, machine, taken, -, heq⟩⟩
    · rw [heq]
    · rw [heq]
      rfl
    · rw [heq]
      dsimp only
      split
      · rfl
      · rfl
  · rw [hframe.runner]
    exact .refl _

theorem judges_join (s : System) (r : RunnerId) : Judges s (s.opened r) := by
  have hopened := opened_opened s r
  refine .of_same (fun t ht => ?_) ?_ hopened.runners fun r' hr' => ?_
  · rw [Machine.isSet, hopened.tokens]
    exact ht
  · unfold opened
    simp only
    split
    · rfl
    · rfl
  · rw [hopened.runner r' hr']
    exact ⟨rfl, rfl, rfl⟩

theorem judges_newRunner (s : System) (job : Job) (options : RunOptions) :
    Judges s (s.newRunner job options).2 where
  tokens := fun t ht => isSet_newToken ht
  switches := rfl
  fresh := by
    intro r hr hle
    have hsize : (s.newRunner job options).2.runners.size = s.runners.size + 1 := Array.size_push _
    obtain rfl : r = s.runners.size := by omega
    obtain ⟨token, group, heq⟩ := @runner_newRunner_size s job options
    rw [heq]
    rfl
  kept := fun r hr x hx => by rw [runner_newRunner s job options hr, hx]
  settings := fun r hr _ => by rw [runner_newRunner s job options hr]
  begins := fun r hr hp hnot => absurd (by rw [runner_newRunner s job options hr, hp]) hnot
  ends := by
    intro r hr hnone x hx
    rw [runner_newRunner s job options hr, hnone] at hx
    cases hx

theorem Act.judges {x y : Loads × System} (h : Act R x y) (hs : Sound x.1 x.2) :
    Judges x.2 y.2 := by
  have hsame : ∀ {s s' : System}, s'.machine.tokens = s.machine.tokens → s'.shell = s.shell →
      s'.runners = s.runners → Judges s s' := by
    intro s s' htokens hshell hrunners
    refine .of_same (fun t ht => ?_) (by rw [hshell]) (by rw [hrunners]) fun r _ => ?_
    · rw [Machine.isSet, htokens]
      exact ht
    · rw [runner_congr hrunners]
      exact .refl _
  cases h with
  | aside h => exact h.judges
  | permute hp => exact hsame rfl rfl rfl
  | record code hr hnot hstages hload hcode => exact judges_record hs code hr hnot hcode
  | capture chunk hr hrun hline hkind => exact judges_capture _ _ chunk
  | hand hrest hlive hoffer => exact hsame (Machine.offer_passes hoffer).1.tokens rfl rfl
  | stall ticket => exact hsame rfl rfl rfl
  | settle hd => exact (ChannelsOnly.of_endDelivery _ _).judges
  | forget r => exact judges_forget _ r
  | read hid => exact judges_read _ _
  | join hr => exact judges_join _ _
  | leave hid hf => exact hsame rfl rfl rfl
  | newRunner options hstages => exact judges_newRunner _ _ options
  | spawn hproper hnone => exact hsame rfl rfl rfl
  | drive hproper hb hbegins hnew => exact hsame rfl rfl rfl

end

/-! ## One pipe -/

/-- The runner has begun with the switch in this position or not at all, and if it is a pipe that has
a result, its code is the one that comes of the codes of its stages. -/
structure Obeys (pipefail : Bool) (s : System) (r : RunnerId) : Prop where
  settings : (s.runner r).phase ≠ .pending → (s.runner r).settings.pipefail = pipefail
  code : ∀ x, (s.runner r).result = some x → ∀ source dest, (s.runner r).job = .pipe source dest →
    ∃ a b, (s.runner source).result = some a ∧ (s.runner dest).result = some b ∧
      x.code = pipeCode pipefail a.code b.code

/-- The runner obeys unless it has been killed, or it does not exist yet. -/
def Ruled (pipefail : Bool) (s : System) (r : RunnerId) : Prop :=
  r < s.runners.size → s.machine.isSet (s.runner r).token = true ∨ Obeys pipefail s r

section

variable {R : StreamId → Prop} {D D' : Loads} {s s' : System} {r : RunnerId} {pipefail : Bool}

theorem lt_of_result {x : RunResult} (h : (s.runner r).result = some x) : r < s.runners.size := by
  refine Nat.lt_of_not_le fun hle => ?_
  rw [runner_of_le hle] at h
  cases h

theorem Judges.pipe {source dest : RunnerId} {code : Int} (h : Judges s s')
    (hcode : ∃ a b, (s.runner source).result = some a ∧ (s.runner dest).result = some b ∧
      code = pipeCode pipefail a.code b.code) :
    ∃ a b, (s'.runner source).result = some a ∧ (s'.runner dest).result = some b ∧
      code = pipeCode pipefail a.code b.code := by
  obtain ⟨a, b, ha, hb, hcode⟩ := hcode
  exact ⟨a, b, h.kept source (lt_of_result ha) a ha, h.kept dest (lt_of_result hb) b hb, hcode⟩

/-- A runner that is new has not begun. -/
theorem obeys_of_pending (hi : s.Inv) (hr : r < s.runners.size)
    (hp : (s.runner r).phase = .pending) : Obeys pipefail s r := by
  refine ⟨fun hnot => absurd hp hnot, fun x hx => ?_⟩
  have hf := (hi.runners r hr).result_iff.mp (by rw [hx]; rfl)
  rw [hp] at hf
  cases hf

theorem Ruled.judges (hruled : Ruled pipefail s r) (h : Judges s s') (ho : Onwards s s')
    (hi : s'.Inv) (hswitch : s.shell.settings.pipefail = pipefail) : Ruled pipefail s' r := by
  intro hr'
  by_cases hr : r < s.runners.size
  · rcases hruled hr with hset | hobeys
    · exact .inl (ho.token r hr ▸ h.tokens _ hset)
    refine or_iff_not_imp_left.mpr fun hlive => ?_
    rw [ho.token r hr] at hlive
    have hsettings : (s'.runner r).phase ≠ .pending →
        (s'.runner r).settings.pipefail = pipefail := by
      intro hbegun
      by_cases hp : (s.runner r).phase = .pending
      · rw [(h.begins r hr hp hbegun).resolve_left hlive, hswitch]
      · rw [h.settings r hr hp, hobeys.settings hp]
    refine ⟨hsettings, fun x hx source dest hjob => ?_⟩
    rw [ho.jobs r hr] at hjob
    cases hbefore : (s.runner r).result with
    | some y =>
      obtain rfl : y = x := Option.some.inj ((h.kept r hr y hbefore).symm.trans hx)
      exact h.pipe (hobeys.code y hbefore source dest hjob)
    | none =>
      have hconcludes := (h.ends r hr hbefore x hx).resolve_left hlive
      obtain ⟨a, b, ha, hb, hcode⟩ := hconcludes.pipe source dest hjob
      rw [hobeys.settings hconcludes.begun.phase] at hcode
      exact h.pipe ⟨a, b, ha, hb, hcode⟩
  · have hfresh := h.fresh r hr' (Nat.le_of_not_lt hr)
    exact .inr (obeys_of_pending hi hr' hfresh)

theorem Acts.ruled {x y : Loads × System} (hacts : Acts R x y) (hs : Sound x.1 x.2)
    (hswitch : x.2.shell.settings.pipefail = pipefail) (h : Ruled pipefail x.2 r) :
    Ruled pipefail y.2 r ∧ y.2.shell.settings.pipefail = pipefail := by
  induction hacts with
  | refl => exact ⟨h, hswitch⟩
  | tail hfirst hact ih =>
    have hmid := (Acts.sound hfirst hs).1
    have hjudges := hact.judges hmid
    obtain ⟨hs', ho⟩ := hact.sound hmid
    exact ⟨ih.1.judges hjudges ho hs'.inv ih.2, by rw [hjudges.switches, ih.2]⟩

theorem Strides.ruled (h : Strides R s s') (hs : s.Stands)
    (hswitch : s.shell.settings.pipefail = pipefail) (hruled : Ruled pipefail s r) :
    Ruled pipefail s' r := by
  obtain ⟨u, hacts, heq⟩ := h.acts
  have hnext := (hacts.ruled hs hswitch hruled).1
  rw [heq]
  exact fun hr => (hnext hr).imp id fun hobeys => ⟨hobeys.settings, hobeys.code⟩

end

/-! ## Chains -/

/-- What happens while the switch is in one position. -/
abbrev MovesUnder (pipefail : Bool) : System → System → Prop :=
  Relation.ReflTransGen fun s s' =>
    s.shell.settings.pipefail = pipefail ∧ Move (fun _ => True) s s'

/-- The runner has come of joining stages from left to right: the first two, then what has come of
them and the third one, and so on. The pipes that have been made are listed as well. -/
inductive Chained (s : System) : RunnerId → List RunnerId → List RunnerId → Prop where
  /-- There is a single stage. -/
  | one (r : RunnerId) : Chained s r [r] []
  /-- One more stage is joined. -/
  | more {first last r : RunnerId} {stages pipes : List RunnerId} (h : Chained s first stages pipes)
      (hjob : (s.runner r).job = .pipe first last) :
      Chained s r (stages ++ [last]) (r :: pipes)

section

variable {s s' u : System} {r : RunnerId} {stages pipes : List RunnerId} {pipefail : Bool}

theorem MovesUnder.moves (h : MovesUnder pipefail s s') : Moves (fun _ => True) s s' := by
  induction h with
  | refl => exact .refl
  | tail _ hmove ih => exact ih.tail hmove.2

theorem MovesUnder.ruled {machine : Machine} (hfeeds : machine.feeds = #[]) {shell : Shell}
    (hu : Moves (fun _ => True) (ofShell machine shell) u) (h : MovesUnder pipefail u s)
    (hpending : r < u.runners.size → (u.runner r).phase = .pending) : Ruled pipefail s r := by
  induction h with
  | refl =>
    have hs := stands_of_moves hfeeds hu
    exact fun hr => .inr (obeys_of_pending hs.inv hr (hpending hr))
  | tail hmoves hmove ih =>
    have hs := stands_of_moves hfeeds (hu.trans (MovesUnder.moves hmoves))
    exact (hmove.2.strides hs (fun _ _ _ _ => trivial) fun _ _ => trivial).ruled hs hmove.1 ih

theorem pipelineCode_singleton (pipefail : Bool) (code : Int) :
    Activity.pipelineCode pipefail [code] = code := by
  cases pipefail with
  | false => rfl
  | true =>
    by_cases hcode : code = 0
    · simp [Activity.pipelineCode, hcode]
    · simp [Activity.pipelineCode, hcode]

/-- The code of a pipeline with one more stage. -/
theorem pipelineCode_concat (pipefail : Bool) (codes : List Int) (code : Int) :
    Activity.pipelineCode pipefail (codes ++ [code]) =
      pipeCode pipefail (Activity.pipelineCode pipefail codes) code := by
  cases pipefail with
  | false => simp [Activity.pipelineCode, pipeCode]
  | true =>
    by_cases hcode : code = 0
    · simp [Activity.pipelineCode, pipeCode, hcode]
    · simp [Activity.pipelineCode, pipeCode, hcode]

/-- If all pipes of a chain obey, its stages have results, and its code is that of a pipeline. -/
theorem Chained.exists_codes (h : s.Chained r stages pipes)
    (hobeys : ∀ pipe ∈ pipes, Obeys pipefail s pipe) {x : RunResult}
    (hx : (s.runner r).result = some x) :
    ∃ codes : List Int,
      stages.map (fun stage => (s.runner stage).result.map RunResult.code) = codes.map some ∧
        x.code = Activity.pipelineCode pipefail codes := by
  induction h generalizing x with
  | one r => exact ⟨[x.code], by simp [hx], (pipelineCode_singleton pipefail x.code).symm⟩
  | @more first last r stages pipes hfirst hjob ih =>
    rw [List.forall_mem_cons] at hobeys
    obtain ⟨a, b, ha, hb, hcode⟩ := hobeys.1.code x hx first last hjob
    obtain ⟨codes, hstages, hresult⟩ := ih hobeys.2 ha
    refine ⟨codes ++ [b.code], by simp [hstages, hb], ?_⟩
    rw [pipelineCode_concat, ← hresult, hcode]

theorem Chained.lt (h : s.Chained r stages pipes) : ∀ pipe ∈ pipes, pipe < s.runners.size := by
  induction h with
  | one => exact nofun
  | @more first last r stages pipes _ hjob ih =>
    refine List.forall_mem_cons.mpr ⟨Nat.lt_of_not_le fun hle => ?_, ih⟩
    rw [runner_of_le hle] at hjob
    cases hjob

/-- The code of the last pipe of a chain is that of a pipeline of its stages, if the switch has not
been touched since the pipes began and none of them has been killed. -/
theorem code_of_chained {disk : Disk} {registry : Registry} {shell : Shell}
    (hu : Moves (fun _ => True) (ofShell (Machine.ofDisk disk registry) shell) u)
    (h : MovesUnder pipefail u s) (hchained : s.Chained r stages pipes)
    (hpending : ∀ pipe ∈ pipes, pipe < u.runners.size → (u.runner pipe).phase = .pending)
    (hlive : ∀ pipe ∈ pipes, s.machine.isSet (s.runner pipe).token = false) {x : RunResult}
    (hx : (s.runner r).result = some x) :
    ∃ codes : List Int,
      stages.map (fun stage => (s.runner stage).result.map RunResult.code) = codes.map some ∧
        x.code = Activity.pipelineCode pipefail codes := by
  refine hchained.exists_codes (fun pipe hpipe => ?_) hx
  have hruled := h.ruled rfl hu (hpending pipe hpipe)
  exact (hruled (hchained.lt pipe hpipe)).resolve_left (Bool.eq_false_iff.mp (hlive pipe hpipe))

/-- The first two of three runners are killed, each by a signal of its own; the last one succeeds. The
code is that of the second one. -/
theorem code_of_chained_killed :
    let first := ofShell (Machine.ofDisk .empty .empty)
      ⟨{ Settings.off with pipefail := true }, "/", [], ⟨"/bin/sh", ["-c"]⟩, true, true, true⟩
    let lines := (((first.newRunner (.line "yes") .standard).2.newRunner (.line "cat")
      .standard).2.newRunner (.line "") .standard).2
    let u := (((lines.pipe 0 1).2.pipe 3 2).2.kill .term 0).kill .int 1
    let s := ((((((u.start 4).2.takeTurn 0).takeTurn 2).takeTurn 1).takeTurn 3).takeTurn 1).takeTurn 0
    Moves (fun _ => True) first u ∧ MovesUnder true u s ∧ s.Chained 4 [0, 1, 2] [4, 3] ∧
      ∃ x, (s.runner 4).result = some x ∧ x.code = Activity.pipelineCode true [143, 130, 0] := by
  intro first lines u s
  -- each step for any system, so that none of them is computed on the way
  have hlines : ∀ v : System, Moves (fun _ => True) v (((v.newRunner (.line "yes")
      .standard).2.newRunner (.line "cat") .standard).2.newRunner (.line "") .standard).2 :=
    fun v => ((Relation.ReflTransGen.single (.newRunner "yes" .standard)).tail
      (.newRunner "cat" .standard)).tail (.newRunner "" .standard)
  have hpipe : ∀ (v : System) (a b : RunnerId), a < v.runners.size → b < v.runners.size →
      Moves (fun _ => True) v (v.pipe a b).2 := fun v a b ha hb => .single (.pipe ha hb)
  have hkills : ∀ v : System, Moves (fun _ => True) v ((v.kill .term 0).kill .int 1) :=
    fun v => (Relation.ReflTransGen.single (.kill .term 0)).tail (.kill .int 1)
  have hmoves : Moves (fun _ => True) first u :=
    (((hlines first).trans (hpipe _ 0 1 (by decide +kernel) (by decide +kernel))).trans
      (hpipe _ 3 2 (by decide +kernel) (by decide +kernel))).trans (hkills _)
  have hturn : ∀ (v : System) (task : TaskId), v.shell.settings.pipefail = true →
      MovesUnder true v (v.takeTurn task) := fun v task h => .single ⟨h, .takeTurn task⟩
  have hstart : MovesUnder true u (u.start 4).2 := .single ⟨by decide +kernel, .start 4⟩
  have hunder : MovesUnder true u s :=
    (((((hstart.trans (hturn _ 0 (by decide +kernel))).trans (hturn _ 2 (by decide +kernel))).trans
      (hturn _ 1 (by decide +kernel))).trans (hturn _ 3 (by decide +kernel))).trans
        (hturn _ 1 (by decide +kernel))).trans (hturn _ 0 (by decide +kernel))
  have hchained : s.Chained 4 [0, 1, 2] [4, 3] :=
    .more (.more (.one 0) (by decide +kernel)) (by decide +kernel)
  obtain ⟨x, hx⟩ : ∃ x, (s.runner 4).result = some x :=
    Option.isSome_iff_exists.mp (by decide +kernel)
  obtain ⟨codes, hcodes, hcode⟩ := code_of_chained hmoves hunder hchained (by decide +kernel)
    (by decide +kernel) hx
  have hthree : [0, 1, 2].map (fun stage => (s.runner stage).result.map RunResult.code) =
      [143, 130, 0].map some := by decide +kernel
  rw [hthree] at hcodes
  have hsome : [143, 130, 0] = codes := (List.map_inj_right fun _ _ => Option.some.inj).mp hcodes
  exact ⟨hmoves, hunder, hchained, x, hx, by rw [hcode, hsome]⟩

end

end Runnel.System
