import Runnel.Proofs.Runner.Moves

/-!
# Runnel.Proofs.Runner.Interrupting

What kills and interrupts do to runners.

* `System.Strikes`: some runners are hit. Those of them that have no result get that of a signal,
  and nothing happens to any other.
* `System.strikes_kill`: a kill hits a runner, and all that it runs.
* `System.strikes_killAll`: many kills hit what each of them hits, in whatever order they come.
-/

namespace Runnel.System

/-- The second runner is the first one, or the first one runs it, or runs something that does. -/
abbrev Within (s : System) : RunnerId → RunnerId → Prop :=
  Relation.ReflTransGen fun r stage => stage ∈ (s.runner r).job.stages

/-- The runners that are hit and have no result get that of a signal. Nothing happens to others. -/
structure Strikes (signal : Signal) (hit : RunnerId → Prop) (s s' : System) : Prop where
  struck : ∀ r, hit r → (s.runner r).phase ≠ .finished →
    s'.runner r = ended signal.exitCode (s.runner r)
  spared : ∀ r, hit r → (s.runner r).phase = .finished → s'.runner r = s.runner r
  missed : ∀ r, ¬ hit r → s'.runner r = s.runner r

/-- What a kill relies on: runners only run older ones, and those that are not finished have no
result. -/
structure Tidy (s : System) : Prop where
  ordered : s.Ordered
  unrecorded : ∀ r, (s.runner r).phase ≠ .finished → (s.runner r).result = none

/-- What stands for a runner that does not exist is finished. -/
theorem lt_of_not_finished {s : System} {r : RunnerId} (hnot : (s.runner r).phase ≠ .finished) :
    r < s.runners.size := by
  refine Nat.lt_of_not_le fun hle => hnot ?_
  rw [runner_of_le hle]
  rfl

theorem Inv.tidy {s : System} (hi : s.Inv) : s.Tidy where
  ordered := hi.ordered
  unrecorded := fun r hnot => by
    have hsound := hi.runners r (lt_of_not_finished hnot)
    cases hx : (s.runner r).result with
    | none => rfl
    | some result => exact absurd (hsound.result_iff.mp (by rw [hx]; rfl)) hnot

theorem within_congr {s s' : System} (h : ∀ r, (s'.runner r).job = (s.runner r).job) :
    s'.Within = s.Within := by
  unfold Within
  simp only [h]

theorem within_iff {s : System} {r r' : RunnerId} : s.Within r r' ↔ s.Contains r r' ∨ r' = r := by
  rw [Within, Relation.reflTransGen_iff_eq_or_transGen, or_comm]

namespace Strikes

variable {signal : Signal} {hit hit' : RunnerId → Prop} {s s' s'' : System}

theorem of_runners (h : s'.runners = s.runners)
    (hnone : ∀ r, hit r → (s.runner r).phase = .finished) : Strikes signal hit s s' :=
  ⟨fun r hr hnot => absurd (hnone r hr) hnot, fun r _ _ => runner_congr h r,
    fun r _ => runner_congr h r⟩

theorem of_runner (h : Strikes signal hit s s') (hr : s''.runner = s'.runner) :
    Strikes signal hit s s'' := by
  obtain ⟨hstruck, hspared, hmissed⟩ := h
  rw [← hr] at hstruck hspared hmissed
  exact ⟨hstruck, hspared, hmissed⟩

theorem congr (h : Strikes signal hit s s') (hh : ∀ r, hit' r ↔ hit r) :
    Strikes signal hit' s s' := by
  have hsame : hit' = hit := funext fun r => propext (hh r)
  rw [hsame]
  exact h

/-- A runner that is hit is finished. -/
theorem finished (h : Strikes signal hit s s') {r : RunnerId} (hr : hit r) :
    (s'.runner r).phase = .finished := by
  by_cases hf : (s.runner r).phase = .finished
  · rw [h.spared r hr hf]
    exact hf
  · rw [h.struck r hr hf]
    rfl

/-- A runner that is hit in vain, or not at all, is what it was. -/
theorem same (h : Strikes signal hit s s') {r : RunnerId}
    (hr : hit r → (s.runner r).phase = .finished) : s'.runner r = s.runner r := by
  by_cases hhit : hit r
  · exact h.spared r hhit (hr hhit)
  · exact h.missed r hhit

theorem job (h : Strikes signal hit s s') (r : RunnerId) :
    (s'.runner r).job = (s.runner r).job := by
  by_cases hhit : hit r
  · by_cases hf : (s.runner r).phase = .finished
    · rw [h.spared r hhit hf]
    · rw [h.struck r hhit hf]
      rfl
  · rw [h.missed r hhit]

theorem tidy (h : Strikes signal hit s s') (ht : s.Tidy) : s'.Tidy where
  ordered := fun r stage hstage => ht.ordered r stage (h.job r ▸ hstage)
  unrecorded := fun r hnot => by
    by_cases hhit : hit r
    · exact absurd (h.finished hhit) hnot
    · rw [h.missed r hhit] at hnot ⊢
      exact ht.unrecorded r hnot

/-- Whoever is hit twice is hit by the first strike. -/
theorem trans (h : Strikes signal hit s s') (h' : Strikes signal hit' s' s'') :
    Strikes signal (fun r => hit r ∨ hit' r) s s'' := by
  refine ⟨fun r hr hnot => ?_, fun r _ hf => ?_, fun r hr => ?_⟩
  · by_cases hhit : hit r
    · rw [h'.same fun _ => h.finished hhit, h.struck r hhit hnot]
    · have hsame := h.missed r hhit
      rw [h'.struck r (hr.resolve_left hhit) (hsame ▸ hnot), hsame]
  · have hsame := h.same fun _ => hf
    rw [h'.same fun _ => hsame ▸ hf, hsame]
  · rw [h'.missed r fun hhit => hr (.inr hhit), h.missed r fun hhit => hr (.inl hhit)]

/-- There is only one way to hit runners. -/
theorem runner_unique (h : Strikes signal hit s s') (h' : Strikes signal hit s s'') :
    s'.runner = s''.runner := by
  funext r
  by_cases hhit : hit r
  · by_cases hf : (s.runner r).phase = .finished
    · rw [h.spared r hhit hf, h'.spared r hhit hf]
    · rw [h.struck r hhit hf, h'.struck r hhit hf]
  · rw [h.missed r hhit, h'.missed r hhit]

end Strikes

/-! ## Kills -/

/-- Kills in a row, each of which hits a runner and all that it runs, hit what all of them hit. -/
theorem strikes_foldl {signal : Signal} {step : System → RunnerId → System} {list : List RunnerId}
    {s : System} (ht : s.Tidy)
    (h : ∀ r ∈ list, ∀ u : System, u.Tidy → Strikes signal (u.Within r) u (step u r)) :
    Strikes signal (fun r => ∃ first ∈ list, s.Within first r) s (list.foldl step s) := by
  induction list generalizing s with
  | nil => exact .of_runners rfl nofun
  | cons a list ih =>
    have hfirst := h a List.mem_cons_self s ht
    have hrest := ih (hfirst.tidy ht) fun r hr => h r (List.mem_cons_of_mem a hr)
    rw [within_congr hfirst.job] at hrest
    exact (hfirst.trans hrest).congr fun r => by simp

section

variable {react : Signal → System → System} {s : System}

/-- Reactions that change no runner may come at any time. -/
theorem runners_tell (h : ∀ signal u, u.runner = s.runner → (react signal u).runner = s.runner)
    (r : RunnerId) (listeners : List Listener) (e : Event) {u : System} (hu : u.runner = s.runner) :
    (tell react r listeners u e).runner = s.runner := by
  unfold tell
  induction Listener.hearing listeners e generalizing u with
  | nil => exact hu
  | cons l list ih =>
    refine ih ?_
    dsimp only
    cases l.reaction with
    | none => exact hu
    | some signal => exact h signal _ hu

theorem runners_foldl_tell
    (h : ∀ signal u, u.runner = s.runner → (react signal u).runner = s.runner)
    (r : RunnerId) (listeners : List Listener) (events : List Event) :
    (events.foldl (tell react r listeners) s).runner = s.runner := by
  have hall : ∀ u : System, u.runner = s.runner →
      (events.foldl (tell react r listeners) u).runner = s.runner := by
    induction events with
    | nil => exact fun _ hu => hu
    | cons e events ih => exact fun u hu => ih _ (runners_tell h r listeners e hu)
  exact hall s rfl

end

/-- A signal for the stages of a runner hits whatever it runs. -/
theorem strikes_reach {depth : Nat}
    (h : ∀ signal stage, stage < depth → ∀ u : System, u.Tidy →
      Strikes signal (u.Within stage) u (killWithin depth signal stage u))
    {r : RunnerId} (hdepth : r ≤ depth) (signal : Signal) {s : System} (ht : s.Tidy) :
    Strikes signal (s.Contains r) s (reach depth r signal s) := by
  have hsignal : Strikes signal (fun _ => False) s (s.signalChildren r signal) :=
    .of_runners rfl nofun
  have hstages := strikes_foldl (hsignal.tidy ht)
    fun stage hstage => h signal stage (Nat.lt_of_lt_of_le (ht.ordered r stage hstage) hdepth)
  refine (hsignal.trans hstages).congr fun r' => ?_
  rw [Contains, Relation.TransGen.head'_iff, false_or]
  exact Iff.rfl

theorem strikes_record {s : System} (signal : Signal) {r : RunnerId}
    (hnot : (s.runner r).phase ≠ .finished) :
    Strikes signal (fun r' => r' = r) s (s.record r signal.exitCode) := by
  refine ⟨?_, ?_, fun r' hne => runner_record_of_ne s hne _⟩
  · rintro _ rfl -
    exact runner_record_self (lt_of_not_finished hnot) _
  · rintro _ rfl hf
    exact absurd hf hnot

/-- A kill that is deep enough hits a runner, and all that it runs. -/
theorem strikes_killWithin {depth : Nat} (signal : Signal) {r : RunnerId} (hdepth : r < depth)
    {s : System} (ht : s.Tidy) :
    Strikes signal (s.Within r) s (killWithin depth signal r s) := by
  induction depth generalizing signal r s with
  | zero => cases hdepth
  | succ depth ih =>
    have hle : r ≤ depth := Nat.le_of_lt_succ hdepth
    have hreach := fun signal {u : System} (hu : u.Tidy) =>
      strikes_reach (fun signal stage hs u hu => ih signal hs hu) hle signal hu
    -- whatever the runner runs is hit first, and then the runner itself
    have hstages := hreach signal ht
    have hwithin : ∀ r', s.Within r r' ↔ s.Contains r r' ∨ r' = r := fun _ => within_iff
    rw [killWithin_succ]
    dsimp only
    split
    · rename_i hf
      refine (hstages.trans (.of_runners rfl ?_)).congr hwithin
      rintro _ rfl
      exact Runner.isFinished_iff.mp hf
    · rename_i hopen
      generalize htoken : ((reach depth r signal s).updateMachine fun m =>
        m.setToken ((reach depth r signal s).runner r).token) = u
      have hrunner : u.runner = (reach depth r signal s).runner :=
        funext (runner_congr (htoken ▸ rfl))
      have hnot : (u.runner r).phase ≠ .finished := fun hf =>
        hopen (Runner.isFinished_iff.mpr (hrunner ▸ hf))
      have hu := hstages.of_runner hrunner
      have hrecord := hu.trans (strikes_record signal hnot)
      refine (hrecord.congr hwithin).of_runner ?_
      rw [finishWith_eq _ _ ((hu.tidy ht).unrecorded r hnot)]
      -- whoever reacts to the end reaches only what is finished
      refine runners_foldl_tell (fun signal' v hv => ?_) r _ _
      have hv' := hrecord.of_runner hv
      have hagain := hreach signal' (hv'.tidy ht)
      rw [← hv]
      refine funext fun r' => hagain.same fun hr' => hv'.finished (.inl ?_)
      rw [Contains] at hr'
      simpa only [hv'.job] using hr'

/-- A kill hits a runner, and all that it runs. -/
theorem strikes_kill {s : System} (ht : s.Tidy) (signal : Signal) (r : RunnerId) :
    Strikes signal (s.Within r) s (s.kill signal r) :=
  strikes_killWithin signal (Nat.lt_succ_self r) ht

/-- Kills some runners, one after the other. -/
def killAll (s : System) (signal : Signal) (list : List RunnerId) : System :=
  list.foldl (fun s r => s.kill signal r) s

/-- The runners that an interrupt kills. -/
def targets (s : System) : List RunnerId :=
  s.supervisor.active.filter s.isAlive

theorem interrupt_eq (s : System) : s.interrupt.2 = s.killAll .int s.targets :=
  rfl

/-- Many kills hit what each of them hits. -/
theorem strikes_killAll {s : System} (ht : s.Tidy) (signal : Signal) (list : List RunnerId) :
    Strikes signal (fun r => ∃ first ∈ list, s.Within first r) s (s.killAll signal list) :=
  strikes_foldl ht fun r _ _ hu => strikes_kill hu signal r

/-- The order of kills makes no difference to runners. -/
theorem runner_killAll_of_perm {s : System} (ht : s.Tidy) (signal : Signal)
    {list list' : List RunnerId} (h : list.Perm list') :
    (s.killAll signal list).runner = (s.killAll signal list').runner := by
  refine (strikes_killAll ht signal list).runner_unique
    ((strikes_killAll ht signal list').congr fun r => ?_)
  simp only [h.mem_iff]

end Runnel.System
