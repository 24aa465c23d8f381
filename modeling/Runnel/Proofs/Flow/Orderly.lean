import Runnel.Flow.Activity
import Runnel.Proofs.Flow.Steps

/-!
# Runnel.Proofs.Flow.Orderly

Work that asks before it starts a command. Between a check of the token and the next one at most one
command is started, and after a check that finds the token set none is.

* `Work.due`: how many commands have passed their check and are not started yet.
* `Work.Orderly`: the condition on a tree of requests, with a condition on its ends.
* `Work.Orderly.steps`: it holds after some steps.
* `Work.Orderly.count_le`: once the token is set, only those commands are started that are underway.
* `Work.Orderly.exists_start`: those among them that read their input are started then.
-/

namespace Runnel
namespace Work

/-! ## What is due -/

mutual

/-- How many commands have passed their check and are still to be started, once work gets here. -/
def due : Work → Nat
  | .rest .. | .read .. | .load .. | .openFile .. | .lookUp .. => 1
  | .call .. | .generate .. | .launch .. => 1
  | .write _ _ _ next => due (next true)
  | .retain _ next | .release _ next | .abandon _ next => due next
  | .together branches _ => dueAll branches
  | _ => 0

/-- How many commands of several branches have passed their check and are still to be started. -/
def dueAll : List Work → Nat
  | [] => 0
  | b :: more => due b + dueAll more

end

mutual

/-- How many commands have passed their check and are still to be started, now that work is here: it
opens their redirects, reads their input or looks them up. -/
def underway : Work → Nat
  | .call .. | .generate .. | .launch .. => 0
  | .together branches _ => underwayAll branches
  | w => due w

/-- How many commands of several branches have passed their check and are still to be started. -/
def underwayAll : List Work → Nat
  | [] => 0
  | b :: more => underway b + underwayAll more

end

mutual

/-- Some command is reading its input. -/
def drains : Work → Bool
  | .read .. => true
  | .together branches _ => drainsAny branches
  | _ => false

/-- Some command of several branches is reading its input. -/
def drainsAny : List Work → Bool
  | [] => false
  | b :: more => drains b || drainsAny more

end

theorem underwayAll_append (before after : List Work) :
    underwayAll (before ++ after) = underwayAll before + underwayAll after := by
  induction before with
  | nil => simp [underwayAll]
  | cons b more ih => simp only [List.cons_append, underwayAll, ih]; omega

mutual

/-- What is due is started at once or still underway. -/
theorem due_eq : (w : Work) → w.due = w.opening.countP Event.isStart + w.underway
  | .together branches next => by
    simp only [due, opening, underway]
    exact dueAll_eq branches
  | .call .. | .generate .. | .launch .. | .write .. => by
    simp [due, opening, underway, Event.isStart]
  | .done .. | .crash | .rest .. | .ask .. | .read .. | .load .. | .openFile .. | .lookUp ..
  | .pause .. | .retain .. | .release .. | .abandon .. | .connect .. | .seek .. | .attend .. => by
    simp [opening, underway]

theorem dueAll_eq : (branches : List Work) →
    dueAll branches = (openings branches).countP Event.isStart + underwayAll branches
  | [] => rfl
  | b :: more => by
    simp only [dueAll, openings, underwayAll, List.countP_append, due_eq b, dueAll_eq more]
    omega

end

/-! ## The condition -/

/-- Some command that `found` knows breaks down when it is asked how much it reads. -/
def SomeBreaks (found : Handler → Prop) : Prop :=
  ∃ handler args, found handler ∧ Activity.demanded handler args = none

section

variable (token : TokenId) (found : Handler → Prop)

mutual

/-- Only this token is asked, at most `n` commands are started before it is asked next, none if it
was set when it was asked last, and ends satisfy `Q`. Input is read for a command that is started
then. Work breaks down only if a command does that `found` knows. -/
def Orderly : Nat → (Int → Context → Prop) → Work → Prop
  | _, Q, .done code ctx => Q code ctx
  | _, _, .crash => SomeBreaks found
  | n, Q, .rest _ next => 0 < n ∧ Orderly 1 Q next
  -- A check begins the count anew.
  | _, Q, .ask asked next => asked = token ∧ Orderly 0 Q (next true) ∧ Orderly 1 Q (next false)
  | n, Q, .write _ _ _ next => (∀ ok, next ok = next true) ∧ Orderly n Q (next true)
  | n, Q, .read _ _ _ next =>
    0 < n ∧ ∀ bytes, Orderly 1 Q (next bytes) ∧ (next bytes).opening.countP Event.isStart = 1
  | n, Q, .load _ next => 0 < n ∧ ∀ loaded, Orderly 1 Q (next loaded)
  | n, Q, .openFile _ _ next => 0 < n ∧ ∀ opened, Orderly 1 Q (next opened)
  | n, Q, .lookUp _ next =>
    0 < n ∧ Orderly 1 Q (next none) ∧ ∀ handler, found handler → Orderly 1 Q (next (some handler))
  | n, Q, .call _ _ next => 0 < n ∧ ∀ outcome, Orderly 0 Q (next outcome)
  | _, Q, .pause _ _ _ next => ∀ cut, Orderly 0 Q (next cut)
  | n, Q, .generate _ _ _ _ _ _ _ next => 0 < n ∧ ∀ how, Orderly 0 Q (next how)
  | n, Q, .retain _ next => Orderly n Q next
  | n, Q, .release _ next => Orderly n Q next
  | n, Q, .abandon _ next => Orderly n Q next
  | _, Q, .connect next => ∀ id, Orderly 0 Q (next id)
  | n, Q, .together branches next =>
    dueAll branches ≤ n ∧ OrderlyAll branches ∧ ∀ codes, Orderly 0 Q (next codes)
  | _, Q, .seek _ _ _ next => ∀ program, Orderly 0 Q (next program)
  | n, Q, .launch _ _ next => 0 < n ∧ ∀ started, Orderly 0 Q (next started)
  | _, Q, .attend _ _ _ _ _ next => ∀ code, Orderly 0 Q (next code)

/-- Each branch is orderly, wherever it ends. -/
def OrderlyAll : List Work → Prop
  | [] => True
  | b :: more => (∃ n, Orderly n (fun _ _ => True) b) ∧ OrderlyAll more

end

end

section

variable {token : TokenId} {found : Handler → Prop} {Q : Int → Context → Prop} {n k : Nat}

theorem orderlyAll_append {before after : List Work} :
    OrderlyAll token found (before ++ after) ↔
      OrderlyAll token found before ∧ OrderlyAll token found after := by
  induction before with
  | nil => simp [OrderlyAll]
  | cons b more ih => simp only [List.cons_append, OrderlyAll, ih, and_assoc]

theorem dueAll_eq_zero {branches : List Work} (h : ∀ b ∈ branches, b.due = 0) :
    dueAll branches = 0 := by
  induction branches with
  | nil => rfl
  | cons b more ih =>
    simp only [dueAll, h b List.mem_cons_self, ih fun b hb => h b (List.mem_cons_of_mem _ hb)]

theorem orderlyAll_of_forall {branches : List Work}
    (h : ∀ b ∈ branches, ∃ n, Orderly token found n (fun _ _ => True) b) :
    OrderlyAll token found branches := by
  induction branches with
  | nil => simp only [OrderlyAll]
  | cons b more ih =>
    simp only [OrderlyAll]
    exact ⟨h b List.mem_cons_self, ih fun b hb => h b (List.mem_cons_of_mem _ hb)⟩

/-- A branch that has broken down says why. -/
theorem OrderlyAll.fails : {branches : List Work} → OrderlyAll token found branches →
    branches.any hasCrashed = true → SomeBreaks found
  | b :: more, h, hcrashed => by
    simp only [OrderlyAll] at h
    obtain ⟨⟨n, hb⟩, hmore⟩ := h
    rw [List.any_cons, Bool.or_eq_true] at hcrashed
    rcases hcrashed with hcrashed | hcrashed
    · cases b with
      | crash => simpa only [Orderly] using hb
      | _ => cases hcrashed
    · exact hmore.fails hcrashed

theorem Orderly.due_le : {w : Work} → Orderly token found n Q w → w.due ≤ n
  | .done .., _ | .crash, _ | .ask .., _ | .pause .., _ | .connect .., _ | .seek .., _
  | .attend .., _ => by
    simp only [due, Nat.zero_le]
  | .rest .., h | .read .., h | .load .., h | .openFile .., h | .lookUp .., h | .call .., h
  | .generate .., h | .launch .., h => by
    simp only [Orderly] at h
    exact h.1
  | .write _ _ _ next, h => by
    simp only [Orderly] at h
    exact h.2.due_le
  | .retain _ next, h | .release _ next, h | .abandon _ next, h => by
    simp only [Orderly] at h
    exact h.due_le
  | .together branches next, h => by
    simp only [Orderly] at h
    exact h.1

/-- The number may be any that allows what is due. -/
theorem Orderly.of_due_le : {w : Work} → Orderly token found n Q w → w.due ≤ k →
    Orderly token found k Q w
  | .done .., h, _ | .crash, h, _ | .ask .., h, _ | .pause .., h, _ | .connect .., h, _
  | .seek .., h, _ | .attend .., h, _ => by
    simpa only [Orderly] using h
  | .rest .., h, hk | .read .., h, hk | .load .., h, hk | .openFile .., h, hk
  | .lookUp .., h, hk | .call .., h, hk | .generate .., h, hk | .launch .., h, hk => by
    simp only [Orderly] at h ⊢
    simp only [due] at hk
    exact ⟨hk, h.2⟩
  | .write _ _ _ next, h, hk => by
    simp only [Orderly] at h ⊢
    simp only [due] at hk
    exact ⟨h.1, h.2.of_due_le hk⟩
  | .retain _ next, h, hk | .release _ next, h, hk | .abandon _ next, h, hk => by
    simp only [Orderly] at h ⊢
    simp only [due] at hk
    exact h.of_due_le hk
  | .together branches next, h, hk => by
    simp only [Orderly] at h ⊢
    simp only [due] at hk
    exact ⟨hk, h.2⟩

theorem Orderly.mono {w : Work} (h : Orderly token found n Q w) (hn : n ≤ k) :
    Orderly token found k Q w :=
  h.of_due_le (Nat.le_trans h.due_le hn)

theorem Orderly.tight {w : Work} (h : Orderly token found n Q w) :
    Orderly token found w.due Q w :=
  h.of_due_le (Nat.le_refl _)

/-! ## Steps -/

variable {m : Machine} {w w' : Work} {events : List Event}

/-- An answer keeps work orderly. If the token is set, no more becomes due than was underway. -/
theorem Orderly.answer
    (hfound : ∀ name handler, m.registry.get? name = some handler → found handler)
    (h : Orderly token found n Q w) (ha : Answer m w w') :
    ∃ k, Orderly token found k Q w' ∧ (m.isSet token = true → k ≤ w.underway) := by
  -- A request before a start is underway itself, so its one may remain; all others lead to a check,
  -- to an end, or past a request that counts as what follows it.
  cases ha with
  | rest => exact ⟨1, by simpa only [Orderly] using h.2, fun _ => Nat.le_refl _⟩
  | ask asked next =>
    simp only [Orderly] at h
    obtain ⟨rfl, htrue, hfalse⟩ := h
    cases hset : m.isSet asked with
    | true => exact ⟨0, htrue, fun _ => Nat.zero_le _⟩
    | false => exact ⟨1, hfalse, fun h => nomatch h⟩
  | write ticket sink data next ok =>
    simp only [Orderly] at h
    rw [h.1 ok]
    exact ⟨_, h.2.tight, fun _ => by simp only [underway, due, Nat.le_refl]⟩
  | read source lines gathered next bytes =>
    simp only [Orderly] at h
    exact ⟨1, (h.2 bytes).1, fun _ => by simp only [underway, due, Nat.le_refl]⟩
  | load path next loaded =>
    simp only [Orderly] at h
    exact ⟨1, h.2 loaded, fun _ => by simp only [underway, due, Nat.le_refl]⟩
  | openFile path mode next opened =>
    simp only [Orderly] at h
    exact ⟨1, h.2 opened, fun _ => by simp only [underway, due, Nat.le_refl]⟩
  | lookUp name next =>
    simp only [Orderly] at h
    refine ⟨1, ?_, fun _ => by simp only [underway, due, Nat.le_refl]⟩
    cases hget : m.registry.get? name with
    | none => exact h.2.1
    | some handler => exact h.2.2 handler (hfound name handler hget)
  | call c i next outcome =>
    simp only [Orderly] at h
    exact ⟨0, h.2 outcome, fun _ => Nat.zero_le _⟩
  | generate g i stdout stderr asked p ticket next how =>
    simp only [Orderly] at h
    exact ⟨0, h.2 how, fun _ => Nat.zero_le _⟩
  | launch l group next started =>
    simp only [Orderly] at h
    exact ⟨0, h.2 started, fun _ => Nat.zero_le _⟩
  | retain | release | abandon =>
    simp only [Orderly] at h
    exact ⟨_, h.tight, fun _ => by simp only [underway, due]; exact Nat.le_refl _⟩
  | pause | connect | seek | attend =>
    simp only [Orderly] at h
    exact ⟨0, h _, fun _ => Nat.zero_le _⟩
  | join next hcodes =>
    simp only [Orderly] at h
    exact ⟨0, h.2.2 _, fun _ => Nat.zero_le _⟩
  | fail next hcrashed =>
    simp only [Orderly] at h
    refine ⟨0, ?_, fun _ => Nat.zero_le _⟩
    simp only [Orderly]
    exact h.2.1.fails hcrashed

theorem Orderly.delay (h : Orderly token found n Q w) (hd : Delay w w') :
    Orderly token found n Q w' ∧ w'.underway = w.underway := by
  cases hd with
  | rest | write | read | pause | generate | attend =>
    simp only [Orderly] at h ⊢
    exact ⟨h, by simp only [underway, due]⟩

/-- A step keeps work orderly. If the token is set, it starts only what is underway. -/
theorem Orderly.step
    (hfound : ∀ name handler, m.registry.get? name = some handler → found handler)
    (h : Orderly token found n Q w) (hs : Step m w events w') :
    ∃ k, Orderly token found k Q w' ∧
      (m.isSet token = true → events.countP Event.isStart + w'.underway ≤ w.underway) := by
  induction hs generalizing n Q with
  | answer ha =>
    obtain ⟨k, hk, hset⟩ := h.answer hfound ha
    exact ⟨k, hk, fun h => by rw [← due_eq]; exact Nat.le_trans hk.due_le (hset h)⟩
  | delay hd =>
    obtain ⟨hw', hunderway⟩ := h.delay hd
    exact ⟨n, hw', fun _ => by simp [hunderway]⟩
  | @branch b b' events before after next _ ih =>
    simp only [Orderly, orderlyAll_append, OrderlyAll] at h
    obtain ⟨_, ⟨hbefore, ⟨l, hb⟩, hafter⟩, hnext⟩ := h
    obtain ⟨k, hb', hset⟩ := ih hb
    refine ⟨dueAll (before ++ b' :: after), ?_, fun h => ?_⟩
    · simp only [Orderly, orderlyAll_append, OrderlyAll]
      exact ⟨Nat.le_refl _, ⟨hbefore, ⟨k, hb'⟩, hafter⟩, hnext⟩
    · have := hset h
      simp only [underway, underwayAll_append, underwayAll]
      omega

variable {P : Machine → Prop}

/-- Some steps keep work orderly. -/
theorem Orderly.steps
    (hfound : ∀ m, P m → ∀ name handler, m.registry.get? name = some handler → found handler)
    (h : Orderly token found n Q w) (hs : Steps P w events w') :
    ∃ k, Orderly token found k Q w' :=
  hs.keeps (I := fun w => ∃ k, Orderly token found k Q w)
    (fun hm hstep ⟨_, hw⟩ => (hw.step (hfound _ hm) hstep).imp fun _ => And.left) ⟨n, h⟩

/-- With the token set, only what is underway is started. -/
theorem Orderly.count_le
    (hfound : ∀ m, P m → ∀ name handler, m.registry.get? name = some handler → found handler)
    (hset : ∀ m, P m → m.isSet token = true)
    (h : Orderly token found n Q w) (hs : Steps P w events w') :
    events.countP Event.isStart ≤ w.underway := by
  induction hs generalizing n with
  | none w => exact Nat.zero_le _
  | step hm hstep _ ih =>
    obtain ⟨k, hw', hcount⟩ := h.step (hfound _ hm) hstep
    have hnow := hcount (hset _ hm)
    have hlater := ih hw'
    rw [List.countP_append]
    omega

mutual

/-- A command that reads its input is started when it has got it, whatever the token is. -/
theorem Orderly.exists_start (m : Machine) {n : Nat} {Q : Int → Context → Prop} : (w : Work) →
    Orderly token found n Q w → w.drains = true →
    ∃ events w', Step m w events w' ∧ events.countP Event.isStart = 1
  | .read source lines gathered next, h, _ => by
    simp only [Orderly] at h
    exact ⟨_, _, .answer (.read source lines gathered next []), (h.2 []).2⟩
  | .together branches next, h, hw => by
    simp only [Orderly] at h
    simp only [drains] at hw
    obtain ⟨events, branches', hstep, hcount⟩ := h.2.1.exists_start m branches hw next []
    exact ⟨events, _, hstep, hcount⟩
  | .done .., _, hw | .crash, _, hw | .rest .., _, hw | .ask .., _, hw | .write .., _, hw
  | .load .., _, hw | .openFile .., _, hw | .lookUp .., _, hw | .call .., _, hw | .pause .., _, hw
  | .generate .., _, hw | .retain .., _, hw | .release .., _, hw | .abandon .., _, hw
  | .connect .., _, hw | .seek .., _, hw | .launch .., _, hw | .attend .., _, hw => by
    simp only [drains, Bool.false_eq_true] at hw

theorem OrderlyAll.exists_start (m : Machine) : (branches : List Work) →
    OrderlyAll token found branches → drainsAny branches = true → ∀ next before,
    ∃ events branches', Step m (.together (before ++ branches) next) events
      (.together (before ++ branches') next) ∧ events.countP Event.isStart = 1
  | [], _, hw, _, _ => by
    simp only [drainsAny, Bool.false_eq_true] at hw
  | b :: more, h, hw, next, before => by
    simp only [OrderlyAll] at h
    obtain ⟨⟨n, hb⟩, hmore⟩ := h
    simp only [drainsAny, Bool.or_eq_true] at hw
    rcases hw with hw | hw
    · obtain ⟨events, b', hstep, hcount⟩ := hb.exists_start m b hw
      exact ⟨events, b' :: more, .branch before more next hstep, hcount⟩
    · obtain ⟨events, more', hstep, hcount⟩ := hmore.exists_start m more hw next (before ++ [b])
      simp only [List.append_assoc, List.singleton_append] at hstep
      exact ⟨events, b :: more', hstep, hcount⟩

end

end

end Work
end Runnel
