import Runnel.Proofs.Flow.Conduct
import Runnel.Proofs.Flow.TurnSteps

/-!
# Runnel.Proofs.Flow.TreeRuns

Runs of command trees, however the commands in them behave and whichever of their pipeline stages go
first.

* `Command.activity_changes`: a tree hands back the exit code that the state holds afterwards. Of the
  state it changes nothing else but the working directory, together with the variable that shows it,
  and a subshell or a pipeline does not even change these.
* `Command.activity_cancelled`: a command asks for the token before its redirects are opened and its
  input is read, and not once more when this has taken its time. So the token stops all commands but
  those that are underway.
* `Command.activity_cancelled_pipeline`: a command that is started although the token is set.
-/

namespace Runnel

/-- A machine that satisfies `P` knows the command. -/
def Registered (P : Machine → Prop) (handler : Handler) : Prop :=
  ∃ m name, P m ∧ m.registry.get? name = some handler

/-- Nothing follows the tree, so what its activity may leave behind holds at its end. -/
theorem Command.orderly_of_steps {P : Machine → Prop} {tree : Command} {ctx : Context}
    {io : Streams} {events : List Work.Event} {w : Work} {F : Context → Int → Context → Prop}
    (hF : Activity.Orderly ctx.token (Registered P) 0 F tree.activity)
    (run : Work.Steps P (tree.activity ctx io .done) events w) :
    ∃ n, Work.Orderly ctx.token (Registered P) n (F ctx) w := by
  have hfound : ∀ m, P m → ∀ name handler, m.registry.get? name = some handler →
      Registered P handler := fun m hm name handler hget => ⟨m, name, hm, hget⟩
  have hstart := hF ctx io .done (F ctx) rfl fun code ctx' h => by
    simpa only [Work.Orderly] using h
  exact hstart.steps hfound run

theorem Command.leads_of_steps {P : Machine → Prop} {tree : Command} {ctx ctx' : Context}
    {io : Streams} {events : List Work.Event} {code : Int}
    (run : Work.Steps P (tree.activity ctx io .done) events (.done code ctx')) :
    ctx.Leads code ctx' := by
  obtain ⟨n, hw⟩ := orderly_of_steps tree.activity_orderly run
  simpa only [Work.Orderly] using hw

/-- Whatever a tree comes to in some steps, it can still come to an end. At an end it hands back the
exit code that the state holds, and the state has changed in the working directory and its variable
at most, after a subshell or a pipeline not even there. The one way around this is that a command
breaks down when it is asked how much it reads. -/
theorem Command.activity_changes {P : Machine → Prop} (tree : Command) (ctx : Context)
    (io : Streams) {events : List Work.Event} {w : Work}
    (run : Work.Steps P (tree.activity ctx io .done) events w) :
    (w.isComplete = true →
      (∃ code ctx', w = .done code ctx' ∧ ctx.Leads code ctx' ∧
        (tree.isContained = true → ctx.Stays code ctx')) ∨
      (w = .crash ∧ Work.SomeBreaks (Registered P))) ∧
    ∀ m, P m → ∃ more w', Work.Steps P w more w' ∧ w'.isComplete = true := by
  obtain ⟨n, hw⟩ := orderly_of_steps tree.activity_orderly run
  refine ⟨fun hcomplete => ?_, fun m hm => Work.exists_ending hm w⟩
  cases w with
  | done code ctx' =>
    refine .inl ⟨code, ctx', rfl, leads_of_steps run, fun hc => ?_⟩
    obtain ⟨k, hstays⟩ := orderly_of_steps (Command.activity_stays hc) run
    simpa only [Work.Orderly] using hstays
  | crash => exact .inr ⟨rfl, by simpa only [Work.Orderly] using hw⟩
  | _ => cases hcomplete

/-- `cd /; (cd /tmp)` ends in the root directory. -/
theorem Command.activity_changes_cd :
    let cd := Handler.pure fun i => .done ⟨[], [], 0, i.args.head?⟩
    let m := Machine.ofDisk .empty (Registry.empty.register 0 "cd" cd).2
    let ctx : Context :=
      ⟨"/home", [("PWD", "/home")], 1, Settings.off, true, ⟨"/bin/sh", ["-c"]⟩, 0, 0⟩
    let enter := fun dir => Command.simple ⟨[.literal "cd"], false⟩ [⟨[.literal dir], false⟩] []
    let tree := Command.sequence (enter "/") [(.next, .subshell (enter "/tmp"))]
    let ctx' : Context := { ctx with cwd := "/", env := [("PWD", "/")], status := 0 }
    (∃ events, Work.Steps (Machine.Keeps m)
      (tree.activity ctx ⟨.empty, .discard, .discard⟩ .done) events (.done 0 ctx')) ∧
      ctx.Leads 0 ctx' := by
  intro cd m ctx enter tree ctx'
  have hturn : ((tree.activity ctx ⟨.empty, .discard, .discard⟩ .done).perform m).work
      = .done 0 ctx' := by
    simp only [tree, enter, Command.activity, Command.memberActivities]
    rfl
  obtain ⟨⟨events, hcovers⟩, -⟩ := Work.perform_steps (Work.stable_keeps m)
    (tree.activity ctx ⟨.empty, .discard, .discard⟩ .done) m (.refl m)
  rw [hturn] at hcovers
  refine ⟨⟨events, hcovers.steps⟩, ?_⟩
  rcases (Command.activity_changes tree ctx _ hcovers.steps).1 rfl with
    ⟨code, ctx'', hw, hleads, -⟩ | ⟨hw, -⟩
  · cases hw
    exact hleads
  · cases hw

/-- Once the token is set, a tree starts no more commands than are underway, and none if none is.
But a command that is reading its input then is started when it has got it. -/
theorem Command.activity_cancelled {P : Machine → Prop} (tree : Command) (ctx : Context)
    (io : Streams) {before : List Work.Event} {w : Work}
    (run : Work.Steps P (tree.activity ctx io .done) before w) :
    (∀ after w', Work.Steps (fun m => m.isSet ctx.token = true) w after w' →
      after.countP Work.Event.isStart ≤ w.underway) ∧
    (w.drains = true → ∀ m, ∃ after w', Work.Step m w after w' ∧
      after.countP Work.Event.isStart = 1) := by
  have hstart : Work.Orderly ctx.token (fun _ => True) 0 (fun _ _ => True)
      (tree.activity ctx io .done) :=
    tree.activity_orderly ctx io .done _ rfl fun code ctx' _ => by simp only [Work.Orderly]
  obtain ⟨n, hw⟩ := hstart.steps (fun _ _ _ _ _ => trivial) run
  exact ⟨fun _ _ hcancelled =>
    hw.count_le (fun _ _ _ _ _ => trivial) (fun _ hset => hset) hcancelled,
    fun hdrains m => hw.exists_start m w hdrains⟩

/-! ## Behind a command that waits to be cancelled -/

theorem Machine.Keeps.isSet_eq {m m' : Machine} (h : Machine.Keeps m m') (token : TokenId) :
    m'.isSet token = m.isSet token := by
  unfold Machine.isSet
  rw [h.tokens]

theorem Work.stable_isSet (token : TokenId) (b : Bool) : Stable fun m => m.isSet token = b :=
  fun _ _ h hm => (h.isSet_eq token).trans hm

namespace Cancelling

/-- A command that ends once it is cancelled. -/
def slow : Handler :=
  .generator ⟨fun _ steps _ => if steps = 0 then .awaitCancel else .finish 143⟩

/-- A command that ends at once. -/
def touch : Handler :=
  .pure fun _ => .done ⟨[], [], 0, none⟩

/-- A machine that knows both commands, with a token. -/
def machine : Machine :=
  let registry := Registry.empty.registerAll 0 [("slow", slow), ("touch", touch)]
  (Machine.ofDisk .empty registry).newToken.2.beginTurn

/-- A state with this token. -/
def state : Context :=
  ⟨"/", [], 0, Settings.off, true, ⟨"/bin/sh", ["-c"]⟩, 0, 0⟩

/-- Streams that nobody uses. -/
def streams : Streams :=
  ⟨.empty, .discard, .discard⟩

/-- A command without arguments. -/
def named (name : String) : Command :=
  .simple ⟨[.literal name], false⟩ [] []

/-- A tree after a turn, and after another one in which the token is set. -/
def twoTurns (tree : Command) : Performed × Performed :=
  let first := (tree.activity state streams .done).perform machine
  (first, first.work.perform (first.machine.setToken state.token).beginTurn)

/-- The turns are steps. -/
theorem steps_of_twoTurns (tree : Command)
    (hset : ((twoTurns tree).1.machine.setToken state.token).beginTurn.isSet state.token = true) :
    ∃ before after,
      Work.Steps (fun m => m.isSet state.token = false) (tree.activity state streams .done) before
        (twoTurns tree).1.work ∧
      Work.Covers (fun m => m.isSet state.token = true) (twoTurns tree).1.work
        (twoTurns tree).2.deeds after (twoTurns tree).2.work := by
  obtain ⟨⟨before, hbefore⟩, -⟩ := Work.perform_steps (Work.stable_isSet state.token false)
    (tree.activity state streams .done) machine rfl
  obtain ⟨⟨after, hafter⟩, -⟩ := Work.perform_steps (Work.stable_isSet state.token true)
    (twoTurns tree).1.work _ hset
  exact ⟨before, after, hbefore.steps, hafter⟩

end Cancelling

open Cancelling

/-- In `slow; touch` nothing is underway while the first command waits, so the other one is not
started once the token is set. -/
theorem Command.activity_cancelled_sequence :
    let tree := Command.sequence (named "slow") [(.next, named "touch")]
    ∃ before after w w',
      Work.Steps (fun m => m.isSet state.token = false) (tree.activity state streams .done) before
        w ∧
      Work.Steps (fun m => m.isSet state.token = true) w after w' ∧
      w'.isComplete = true ∧ after.countP Work.Event.isStart = 0 := by
  intro tree
  obtain ⟨before, after, hbefore, hafter⟩ := steps_of_twoTurns tree (by
    simp only [tree, twoTurns, named, Command.activity, Command.memberActivities]
    rfl)
  have hnone : (twoTurns tree).1.work.underway = 0 := by
    simp only [tree, twoTurns, named, Command.activity, Command.memberActivities]
    rfl
  have hcomplete : (twoTurns tree).2.work.isComplete = true := by
    simp only [tree, twoTurns, named, Command.activity, Command.memberActivities]
    rfl
  have hcount := (Command.activity_cancelled tree state streams hbefore).1 _ _ hafter.steps
  rw [hnone] at hcount
  exact ⟨before, after, _, _, hbefore, hafter.steps, hcomplete, Nat.le_zero.mp hcount⟩

/-- In `slow | touch` the second command reads what the first one writes, to its end, and is started
then, although the token was set before. -/
theorem Command.activity_cancelled_pipeline :
    let tree := Command.pipeline [named "slow", named "touch"]
    ∃ before after w w' i,
      Work.Steps (fun m => m.isSet state.token = false) (tree.activity state streams .done) before
        w ∧
      Work.Steps (fun m => m.isSet state.token = true) w after w' ∧ .invoke touch i ∈ after := by
  intro tree
  obtain ⟨before, after, hbefore, hafter⟩ := steps_of_twoTurns tree (by
    simp only [tree, twoTurns, named, Command.activity, Command.activities]
    rfl)
  have hdeeds : (twoTurns tree).2.deeds = [.invoke slow ⟨"slow", [], "", "/", [], 0⟩,
      .invoke touch ⟨"touch", [], "", "/", [], 0⟩] := by
    simp only [tree, twoTurns, named, Command.activity, Command.activities]
    rfl
  have hopening : (twoTurns tree).1.work.opening
      = [.invoke slow ⟨"slow", [], "", "/", [], 0⟩] := by
    simp only [tree, twoTurns, named, Command.activity, Command.activities]
    rfl
  have hnoticed := hafter.deeds
  rw [hdeeds, hopening] at hnoticed
  have htouch : Work.Event.invoke touch ⟨"touch", [], "", "/", [], 0⟩ ∈ after := by
    have h := @hnoticed (.invoke touch ⟨"touch", [], "", "/", [], 0⟩) (by simp [Deed.events])
    simpa using h
  exact ⟨before, after, _, _, _, hbefore, hafter.steps, htouch⟩

end Runnel
