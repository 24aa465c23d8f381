import Mathlib.Logic.Function.Basic
import Runnel.Proofs.Runner.Handling

/-!
# Runnel.Proofs.Runner.Waking

A token, those who wait for it, and those who cancel it, all side by side. Whoever waits registers
with a bell, looks whether the token is set, and sleeps until the bell wakes it; then it looks again.
Whoever cancels sets the token and, if it is the first to do so, rings the bell. Between any two of
these steps others may take theirs.

* `Bell`: what wakes those who wait. Of it only `Bell.WakesNext` is needed.
* `Cancellation.Step`, `Steps`: single steps, and any interleaving of them.
* `Cancellation.Sound`: what every step keeps.
* `Cancellation.noneMissed`: one call is the first, and once it has returned everybody who waits gets
  away.
* `Cancellation.wakes_eq_isOver`: unless a call is between setting and ringing, those who sleep are
  woken just when the machine takes their wait to be over.
-/

namespace Runnel

/-- What wakes those who sleep. How it does so is left open. -/
structure Bell where
  /-- What it remembers. -/
  State : Type
  /-- What those get who register. -/
  Ticket : Type
  /-- It has not been rung. -/
  silent : State
  /-- Somebody registers. -/
  register : State → Ticket
  /-- It is rung. -/
  ring : State → State
  /-- Whoever has this ticket does not sleep. -/
  wakes : State → Ticket → Bool

/-- Whoever has registered is woken when the bell is rung next. -/
def Bell.WakesNext (b : Bell) : Prop :=
  ∀ s, b.wakes (b.ring s) (b.register s) = true

/-- Whoever has registered is not woken before the bell is rung again. -/
def Bell.WaitsForNext (b : Bell) : Prop :=
  ∀ s, b.wakes s (b.register s) = false

/-- A bell that counts how often it was rung. -/
def Bell.counting : Bell where
  State := Nat
  Ticket := Nat
  silent := 0
  register := fun rings => rings
  ring := fun rings => rings + 1
  wakes := fun rings seen => decide (seen < rings)

theorem Bell.wakesNext_counting : Bell.counting.WakesNext := by
  simp [WakesNext, counting]

theorem Bell.waitsForNext_counting : Bell.counting.WaitsForNext := by
  simp [WaitsForNext, counting]

/-- How far a call is that cancels. -/
inductive CancelCall where
  /-- It has not begun. -/
  | ready
  /-- It was the first to set the token. -/
  | ringing
  /-- It has returned, and says whether it was the first. -/
  | returned (first : Bool)
  deriving Repr, DecidableEq

/-- What a call returns, as soon as that is settled. -/
def CancelCall.answer? : CancelCall → Option Bool
  | .ready => none
  | .ringing => some true
  | .returned first => some first

/-- How far somebody is who waits. -/
inductive Waiter (b : Bell) where
  /-- It is about to register. -/
  | entering
  /-- It has registered. -/
  | registered (ticket : b.Ticket)
  /-- The token was not set. -/
  | parked (ticket : b.Ticket)
  /-- The token was set, and it waits no longer. -/
  | left

/-- How many steps somebody still takes who waits for a token that is set: one who sleeps wakes up,
registers and leaves. -/
def Waiter.remaining {b : Bell} : Waiter b → Nat
  | .parked _ => 3
  | .entering => 2
  | .registered _ => 1
  | .left => 0

theorem Waiter.remaining_le {b : Bell} (p : Waiter b) : p.remaining ≤ 3 := by
  cases p <;> simp [remaining]

theorem Waiter.remaining_eq_zero {b : Bell} {p : Waiter b} : p.remaining = 0 ↔ p = .left := by
  cases p <;> simp [remaining]

/-- A token and all who have to do with it. -/
structure Cancellation (b : Bell) where
  /-- The system in which the token is. -/
  system : System
  /-- The token. -/
  token : TokenId
  /-- The bell of those who wait for it. -/
  bell : b.State
  /-- The calls that cancel it. -/
  calls : Nat → CancelCall
  /-- Those who wait for it. -/
  waiters : Nat → Waiter b

/-- Who takes a step. -/
inductive Actor where
  /-- A call that cancels. -/
  | call (i : Nat)
  /-- Somebody who waits. -/
  | waiter (w : Nat)
  deriving Repr, DecidableEq

namespace Cancellation

variable {b : Bell}

/-- A new token. -/
def start (b : Bell) (system : System) : Cancellation b where
  system := { system with machine := system.machine.newToken.2 }
  token := system.machine.newToken.1
  bell := b.silent
  calls := fun _ => .ready
  waiters := fun _ => .entering

/-- The token is set. -/
def isSet (s : Cancellation b) : Bool :=
  s.system.machine.isSet s.token

/-- Somebody who waits is this far now. -/
def place (s : Cancellation b) (w : Nat) (p : Waiter b) : Cancellation b :=
  { s with waiters := Function.update s.waiters w p }

/-- A single step of somebody. -/
inductive Step (s : Cancellation b) : Actor → Cancellation b → Prop where
  /-- A call sets the token and learns whether it is the first. -/
  | swap {i : Nat} (h : s.calls i = .ready) :
      Step s (.call i)
        { s with
          system := (s.system.cancel s.token).2
          calls := Function.update s.calls i
            (if (s.system.cancel s.token).1 then .ringing else .returned false) }
  /-- The first call rings. -/
  | ring {i : Nat} (h : s.calls i = .ringing) :
      Step s (.call i)
        { s with
          bell := b.ring s.bell
          calls := Function.update s.calls i (.returned true) }
  /-- Somebody registers before looking at the token. -/
  | register {w : Nat} (h : s.waiters w = .entering) :
      Step s (.waiter w) (s.place w (.registered (b.register s.bell)))
  /-- Somebody sees that the token is set. -/
  | leave {w : Nat} {t : b.Ticket} (h : s.waiters w = .registered t) (hs : s.isSet = true) :
      Step s (.waiter w) (s.place w .left)
  /-- Somebody sees that the token is not set. -/
  | park {w : Nat} {t : b.Ticket} (h : s.waiters w = .registered t) (hs : s.isSet = false) :
      Step s (.waiter w) (s.place w (.parked t))
  /-- Somebody is woken, and starts again. -/
  | wake {w : Nat} {t : b.Ticket} (h : s.waiters w = .parked t) (ht : b.wakes s.bell t = true) :
      Step s (.waiter w) (s.place w .entering)

/-- Steps of these, one after the other. -/
inductive Steps : Cancellation b → List Actor → Cancellation b → Prop where
  | refl (s : Cancellation b) : Steps s [] s
  | cons {s s' s'' : Cancellation b} {a : Actor} {rest : List Actor} (h : Step s a s')
      (hrest : Steps s' rest s'') : Steps s (a :: rest) s''

variable {s s' : Cancellation b} {a : Actor}

/-! ## What every step keeps -/

/-- How far the calls are together: none has begun, or one was the first and still has to ring, or it
has rung. All others are too late. -/
inductive Stage (s : Cancellation b) : Prop where
  | unset (hset : s.isSet = false) (hcalls : ∀ i, s.calls i = .ready) (hbell : s.bell = b.silent)
  | ringing {i : Nat} (hset : s.isSet = true) (hcall : s.calls i = .ringing)
      (hfirst : ∀ j, (s.calls j).answer? = some true → j = i) (hbell : s.bell = b.silent)
  | rung {i : Nat} (hset : s.isSet = true) (hcall : s.calls i = .returned true)
      (hfirst : ∀ j, (s.calls j).answer? = some true → j = i) (hbell : s.bell = b.ring b.silent)

/-- Whoever sleeps has registered before the bell was rung, and so has everybody who will fall asleep
next. Whoever has left has seen that the token is set. -/
def Timely (s : Cancellation b) : Waiter b → Prop
  | .entering => True
  | .registered t => s.isSet = false → t = b.register b.silent
  | .parked t => t = b.register b.silent
  | .left => s.isSet = true

/-- The token is set, and nobody still has to ring. -/
structure Settled (s : Cancellation b) : Prop where
  set : s.isSet = true
  quiet : ∀ i, s.calls i ≠ .ringing

/-- The token is there, the calls are at one of their stages, and all who wait are in time. -/
structure Sound (s : Cancellation b) : Prop where
  token : s.token < s.system.machine.tokens.size
  stage : s.Stage
  waiters : ∀ w, s.Timely (s.waiters w)

section Sound

variable {s s' : Cancellation b} {a : Actor}

theorem sound_start (b : Bell) (system : System) : (start b system).Sound where
  token := by simp [start, Machine.newToken]
  stage := .unset (by simp [start, isSet, Machine.newToken, Machine.isSet]) (fun _ => rfl) rfl
  waiters := fun _ => trivial

/-- A call that is too late leaves the first one what it is. -/
theorem first_update {calls : Nat → CancelCall} {i j : Nat}
    (hfirst : ∀ k, (calls k).answer? = some true → k = j) :
    ∀ k, (Function.update calls i (.returned false) k).answer? = some true → k = j := by
  intro k hk
  by_cases hki : k = i
  · rw [hki, Function.update_self] at hk
    cases hk
  · rw [Function.update_of_ne hki] at hk
    exact hfirst k hk

theorem Stage.swap (h : s.Stage) {i : Nat} (hi : s.calls i = .ready)
    (htoken : s.token < s.system.machine.tokens.size) :
    Stage { s with
      system := (s.system.cancel s.token).2
      calls := Function.update s.calls i
        (if (s.system.cancel s.token).1 then .ringing else .returned false) } := by
  have hset : (s.system.cancel s.token).2.machine.isSet s.token = true :=
    System.isSet_setToken_self htoken
  have hanswer : (s.system.cancel s.token).1 = !s.isSet := rfl
  rw [hanswer]
  cases h with
  | unset hunset hcalls hbell =>
    -- nobody was faster
    rw [hunset]
    refine .ringing (i := i) hset (Function.update_self ..) (fun j hj => ?_) hbell
    by_cases hji : j = i
    · exact hji
    · simp [Function.update_of_ne hji, hcalls j, CancelCall.answer?] at hj
  | @ringing j hisSet hcall hfirst hbell =>
    -- the first call is another one, and stays what it is
    have hne : j ≠ i := fun heq => by simp [heq, hi] at hcall
    rw [hisSet]
    exact .ringing hset ((Function.update_of_ne hne ..).trans hcall) (first_update hfirst) hbell
  | @rung j hisSet hcall hfirst hbell =>
    have hne : j ≠ i := fun heq => by simp [heq, hi] at hcall
    rw [hisSet]
    exact .rung hset ((Function.update_of_ne hne ..).trans hcall) (first_update hfirst) hbell

theorem Stage.ring (h : s.Stage) {i : Nat} (hi : s.calls i = .ringing) :
    Stage { s with
      bell := b.ring s.bell
      calls := Function.update s.calls i (.returned true) } := by
  cases h with
  | unset _ hcalls _ =>
    rw [hcalls i] at hi
    cases hi
  | @ringing j hset hcall hfirst hbell =>
    obtain rfl : i = j := hfirst i (by rw [hi, CancelCall.answer?])
    refine .rung (i := i) hset (Function.update_self ..) (fun k hk => ?_) (congrArg b.ring hbell)
    by_cases hki : k = i
    · exact hki
    · exact hfirst k (by simpa [Function.update_of_ne hki] using hk)
  | @rung j _ hcall hfirst _ =>
    obtain rfl : i = j := hfirst i (by rw [hi, CancelCall.answer?])
    rw [hi] at hcall
    cases hcall

/-- As soon as a call has begun, exactly one of them is the first. -/
theorem Stage.existsUnique (h : s.Stage) {i : Nat} (hi : s.calls i ≠ .ready) :
    ∃! i, (s.calls i).answer? = some true := by
  cases h with
  | unset _ hcalls _ => exact absurd (hcalls i) hi
  | @ringing j _ hcall hfirst _ | @rung j _ hcall hfirst _ =>
    exact ⟨j, by simp only [hcall, CancelCall.answer?], hfirst⟩

/-- The bell is silent as long as the token is not set. -/
theorem Stage.bell_of_unset (h : s.Stage) (hset : s.isSet = false) : s.bell = b.silent := by
  cases h with
  | unset _ _ hbell => exact hbell
  | ringing hisSet | rung hisSet =>
    rw [hset] at hisSet
    cases hisSet

/-- A token that is set makes nobody late. -/
theorem Timely.set {p : Waiter b} (h : s.Timely p) (hset : s'.isSet = true) : s'.Timely p := by
  cases p with
  | entering => trivial
  | registered t => exact fun hun => absurd (hset.symm.trans hun) nofun
  | parked t => exact h
  | left => exact hset

theorem Sound.place (hs : s.Sound) (w : Nat) {p : Waiter b} (hp : s.Timely p) :
    (s.place w p).Sound := by
  refine ⟨hs.token, ?_, fun v => ?_⟩
  · cases hs.stage with
    | unset hset hcalls hbell => exact .unset hset hcalls hbell
    | ringing hset hcall hfirst hbell => exact .ringing hset hcall hfirst hbell
    | rung hset hcall hfirst hbell => exact .rung hset hcall hfirst hbell
  · show s.Timely (Function.update s.waiters w p v)
    by_cases hv : v = w
    · rw [hv, Function.update_self]
      exact hp
    · rw [Function.update_of_ne hv]
      exact hs.waiters v

/-- Every step keeps it. -/
theorem Step.sound (h : Step s a s') (hs : s.Sound) : s'.Sound := by
  cases h with
  | swap h =>
    refine ⟨?_, hs.stage.swap h hs.token, fun w => ?_⟩
    · exact Nat.lt_of_lt_of_eq hs.token Array.size_setIfInBounds.symm
    · exact (hs.waiters w).set (System.isSet_setToken_self hs.token)
  | ring h => exact ⟨hs.token, hs.stage.ring h, hs.waiters⟩
  -- whoever registers now and then finds the token unset was there before the bell is rung
  | register _ => exact hs.place _ fun hset => congrArg b.register (hs.stage.bell_of_unset hset)
  | leave _ hset => exact hs.place _ hset
  | @park w t h hset =>
    have htimely : s.Timely (.registered t) := h ▸ hs.waiters w
    exact hs.place _ (htimely hset)
  | wake _ _ => exact hs.place _ trivial

theorem Steps.sound {trace : List Actor} (h : Steps s trace s') (hs : s.Sound) : s'.Sound := by
  induction h with
  | refl => exact hs
  | cons hstep _ ih => exact ih (hstep.sound hs)

/-! ## What stays as it is -/

theorem Step.isSet (h : Step s a s') (hs : s.Sound) (hset : s.isSet = true) : s'.isSet = true := by
  cases h with
  | swap _ => exact System.isSet_setToken_self hs.token
  | ring _ | register _ | leave _ _ | park _ _ | wake _ _ => exact hset

theorem Step.answer (h : Step s a s') {i : Nat} {first : Bool}
    (hi : (s.calls i).answer? = some first) : (s'.calls i).answer? = some first := by
  cases h with
  | @swap j h =>
    have hne : i ≠ j := fun heq => by simp [heq, h, CancelCall.answer?] at hi
    simpa [Function.update_of_ne hne] using hi
  | @ring j h =>
    by_cases hij : i = j
    · subst hij
      rw [h] at hi
      simpa [CancelCall.answer?] using hi
    · simpa [Function.update_of_ne hij] using hi
  | register _ | leave _ _ | park _ _ | wake _ _ => exact hi

/-- The token stays set, and what a call returns does not change any more. -/
theorem Steps.keeps {trace : List Actor} (h : Steps s trace s') (hs : s.Sound) :
    (s.isSet = true → s'.isSet = true) ∧
      ∀ i first, (s.calls i).answer? = some first → (s'.calls i).answer? = some first := by
  induction h with
  | refl => exact ⟨id, fun _ _ => id⟩
  | cons hstep _ ih =>
    obtain ⟨hset, hanswer⟩ := ih (hstep.sound hs)
    exact ⟨fun h => hset (hstep.isSet hs h), fun i first h => hanswer i first (hstep.answer h)⟩

/-! ## The way out -/

/-- Once the first call has returned, everything is settled. -/
theorem Stage.settled (h : s.Stage) {i : Nat} (hi : s.calls i = .returned true) : s.Settled := by
  cases h with
  | unset _ hcalls _ =>
    rw [hcalls i] at hi
    cases hi
  | @ringing j _ hcall hfirst _ =>
    obtain rfl : i = j := hfirst i (by rw [hi, CancelCall.answer?])
    rw [hi] at hcall
    cases hcall
  | @rung j hset hcall hfirst _ =>
    refine ⟨hset, fun k hk => ?_⟩
    obtain rfl : k = j := hfirst k (by rw [hk, CancelCall.answer?])
    rw [hk] at hcall
    cases hcall

theorem Step.settled (h : Step s a s') (hs : s.Sound) (hd : s.Settled) : s'.Settled := by
  refine ⟨h.isSet hs hd.set, ?_⟩
  cases h with
  | @swap i _ =>
    have hlate : (s.system.cancel s.token).1 = false := congrArg not hd.set
    intro j
    show Function.update s.calls i _ j ≠ .ringing
    rw [hlate]
    by_cases hji : j = i
    · rw [hji, Function.update_self]
      exact nofun
    · rw [Function.update_of_ne hji]
      exact hd.quiet j
  | ring h => exact absurd h (hd.quiet _)
  | register _ | leave _ _ | park _ _ | wake _ _ => exact hd.quiet

theorem Steps.settled {trace : List Actor} (h : Steps s trace s') (hs : s.Sound)
    (hd : s.Settled) : s'.Settled := by
  induction h with
  | refl => exact hd
  | cons hstep _ ih => exact ih (hstep.sound hs) (hstep.settled hs hd)

/-- Once everything is settled, nobody sleeps who is not woken. -/
theorem Sound.wakes (hb : b.WakesNext) (hs : s.Sound) (hd : s.Settled) {w : Nat} {t : b.Ticket}
    (hw : s.waiters w = .parked t) : b.wakes s.bell t = true := by
  -- the ticket is from before the bell was rung, and it was rung once
  have htimely : s.Timely (.parked t) := hw ▸ hs.waiters w
  obtain rfl : t = b.register b.silent := htimely
  cases hs.stage with
  | unset hset _ _ => exact absurd (hd.set.symm.trans hset) nofun
  | ringing _ hcall _ _ => exact absurd hcall (hd.quiet _)
  | rung _ _ _ hbell =>
    rw [hbell]
    exact hb b.silent

/-- Once everything is settled, nobody who still waits is held up. -/
theorem Sound.exists_step (hb : b.WakesNext) (hs : s.Sound) (hd : s.Settled) {w : Nat}
    (hw : s.waiters w ≠ .left) : ∃ s', Step s (.waiter w) s' := by
  cases hp : s.waiters w with
  | entering => exact ⟨_, .register hp⟩
  | registered t => exact ⟨_, .leave hp hd.set⟩
  | parked t => exact ⟨_, .wake hp (hs.wakes hb hd hp)⟩
  | left => exact absurd hp hw

/-- When the token is set, the steps of one who waits bring it closer to the end, and the steps of
others do not throw it back. -/
theorem Step.remaining (h : Step s a s') (hset : s.isSet = true) (w : Nat) :
    (s'.waiters w).remaining + [a].count (.waiter w) = (s.waiters w).remaining := by
  have own {v : Nat} {p : Waiter b} (hp : p.remaining + 1 = (s.waiters v).remaining) :
      ((s.place v p).waiters w).remaining + [Actor.waiter v].count (.waiter w) =
        (s.waiters w).remaining := by
    by_cases hwv : w = v
    · simpa [Cancellation.place, hwv] using hp
    · simp [Cancellation.place, Function.update_of_ne hwv, Ne.symm hwv]
  cases h with
  | swap _ | ring _ => simp
  | register h | leave h _ | wake h _ => exact own (by rw [h, Waiter.remaining, Waiter.remaining])
  | park _ hun => exact absurd (hset.symm.trans hun) nofun

theorem Steps.remaining {trace : List Actor} (h : Steps s trace s') (hs : s.Sound)
    (hset : s.isSet = true) (w : Nat) :
    (s'.waiters w).remaining + trace.count (.waiter w) = (s.waiters w).remaining := by
  induction h with
  | refl => rfl
  | @cons s s' s'' a rest hstep _ ih =>
    have hrest := ih (hstep.sound hs) (hstep.isSet hs hset)
    have hfirst := hstep.remaining hset w
    rw [← List.singleton_append, List.count_append]
    omega

end Sound

/-- Whatever the calls and those who wait have done so far: exactly one of the calls that have begun
is the first, and it can go on to say so; neither the token nor an answer is ever taken back; and
nobody leaves before the token is set. Once the first call has returned, nobody sleeps who is not
woken: at most three more steps lead everybody who waits out, and until they are taken the next of
them can be taken, whatever the others do in between. -/
theorem noneMissed (hb : b.WakesNext) (system : System) {trace : List Actor} {s : Cancellation b}
    (h : Steps (start b system) trace s) :
    ((∃ i, s.calls i ≠ .ready) → ∃! i, (s.calls i).answer? = some true) ∧
    (∀ i, s.calls i = .ringing → ∃ s', Step s (.call i) s' ∧ s'.calls i = .returned true) ∧
    (∀ more s', Steps s more s' →
      (s.isSet = true → s'.isSet = true) ∧
      ∀ i first, (s.calls i).answer? = some first → (s'.calls i).answer? = some first) ∧
    (∀ w, s.waiters w = .left → s.isSet = true) ∧
    ∀ i, s.calls i = .returned true → ∀ w,
      (∀ t, s.waiters w = .parked t → b.wakes s.bell t = true) ∧
      ∃ n ≤ 3, ∀ more s', Steps s more s' →
        more.count (.waiter w) ≤ n ∧
        (more.count (.waiter w) < n → ∃ s'', Step s' (.waiter w) s'') ∧
        (more.count (.waiter w) = n → s'.waiters w = .left) := by
  have hs : s.Sound := h.sound (sound_start b system)
  refine ⟨fun ⟨i, hi⟩ => hs.stage.existsUnique hi, fun i hi => ⟨_, .ring hi, Function.update_self ..⟩,
    fun more s' hmore => hmore.keeps hs, fun w hw => ?_, fun i hi w => ?_⟩
  · have htimely : s.Timely .left := hw ▸ hs.waiters w
    exact htimely
  · have hd : s.Settled := hs.stage.settled hi
    refine ⟨fun t ht => hs.wakes hb hd ht, _, (s.waiters w).remaining_le, fun more s' hmore => ?_⟩
    have hcount := hmore.remaining hs hd.set w
    refine ⟨by omega, fun hlt => ?_, fun heq => ?_⟩
    · have hleft : s'.waiters w ≠ .left := fun hleft => by
        have hzero := Waiter.remaining_eq_zero.mpr hleft
        omega
      exact (hmore.sound hs).exists_step hb (hmore.settled hs hd) hleft
    · exact Waiter.remaining_eq_zero.mp (by omega)

/-- One falls asleep before the token is set, one leaves right after that, and one registers before the
bell is rung; a second call comes too late. -/
theorem noneMissed_parked :
    let first := System.ofShell (Machine.ofDisk .empty .empty)
      ⟨.off, "/", [], ⟨"/bin/sh", ["-c"]⟩, true, true, true⟩
    Bell.counting.WakesNext ∧
    ∃ s : Cancellation .counting,
      Steps (start .counting first)
        [.waiter 0, .waiter 1, .waiter 0, .call 0, .waiter 1, .call 1, .waiter 2, .call 0] s ∧
      (s.waiters 0 = .parked (0 : Nat) ∧ s.waiters 1 = .left ∧ s.waiters 2 = .registered (0 : Nat) ∧
        s.calls 0 = .returned true ∧ s.calls 1 = .returned false) ∧
      (∃! i, (s.calls i).answer? = some true) ∧
      Bell.counting.wakes s.bell (0 : Nat) = true ∧
      ∃ n ≤ 3, ∀ more s', Steps s more s' →
        more.count (.waiter 0) ≤ n ∧
        (more.count (.waiter 0) < n → ∃ s'', Step s' (.waiter 0) s'') ∧
        (more.count (.waiter 0) = n → s'.waiters 0 = .left) := by
  intro first
  refine ⟨Bell.wakesNext_counting, ?_⟩
  have hsteps := Steps.cons (.register (s := start .counting first) (w := 0) rfl) <|
    .cons (.register (w := 1) rfl) <| .cons (.park (w := 0) rfl rfl) <|
    .cons (.swap (i := 0) rfl) <| .cons (.leave (w := 1) rfl rfl) <| .cons (.swap (i := 1) rfl) <|
    .cons (.register (w := 2) rfl) <| .cons (.ring (i := 0) rfl) <| .refl _
  obtain ⟨hone, -, -, -, hout⟩ := noneMissed Bell.wakesNext_counting first hsteps
  obtain ⟨hwoken, hleads⟩ := hout 0 rfl 0
  exact ⟨_, hsteps, ⟨rfl, rfl, rfl, rfl, rfl⟩, hone ⟨0, nofun⟩, hwoken (0 : Nat) rfl, hleads⟩

/-! ## The wait of the machine -/

/-- Asking whether the token is set, which is how a wait ends while the system runs, comes to the same
as listening for the bell. -/
theorem wakes_eq_isOver (hb : b.WakesNext) (hb' : b.WaitsForNext) {system : System}
    {trace : List Actor} {s : Cancellation b} (h : Steps (start b system) trace s)
    (hquiet : ∀ i, s.calls i ≠ .ringing) {w : Nat} {t : b.Ticket} (hw : s.waiters w = .parked t) :
    b.wakes s.bell t = s.system.machine.isOver (.token s.token) := by
  have hs : s.Sound := h.sound (sound_start b system)
  show b.wakes s.bell t = s.isSet
  cases hset : s.isSet with
  | true => exact hs.wakes hb ⟨hset, hquiet⟩ hw
  | false =>
    have htimely : s.Timely (.parked t) := hw ▸ hs.waiters w
    obtain rfl : t = b.register b.silent := htimely
    rw [hs.stage.bell_of_unset hset]
    exact hb' b.silent

end Cancellation
end Runnel
