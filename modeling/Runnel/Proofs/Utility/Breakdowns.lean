import Runnel.Proofs.Utility.Dashes
import Runnel.Proofs.Utility.PathNames
import Runnel.Proofs.Utility.Pauses
import Runnel.Utility.Standard

/-!
# Runnel.Proofs.Utility.Breakdowns

Commands that are called with arguments of any kind, step by step. A text is cut at a byte, a list
is asked for an element, and numbers are added: each such step may break the command down.

* `Risky.calls`: the commands, with all such steps.
* `Settles`: no step breaks down, and together they do what the command does.
* `Risky.excerpt_eq`, `Risky.directory_eq`, `Risky.sequence_eq` and others: what the steps come to.
* `Risky.calls_settle`: this holds for all commands, except for a pause that is too long.
-/

namespace Runnel

/-- Where there are as many numbers as can be counted with, each of them is a 64-bit integer. -/
def Sequence.Whole (args : List String) : Prop :=
  1 ≤ args.length → args.length ≤ 3 → ∀ arg ∈ args, ∃ n, Number.readInt64? arg = some n

/-- A call with all of its steps that may break down. -/
structure RiskyCall where
  /-- How much of its input it reads, given its arguments. -/
  demand : List String → Risky Demand
  /-- How it ends. -/
  run : Invocation → Disk → Risky Outcome

namespace Risky

/-- The command that prints its arguments. -/
def print (i : Invocation) : Risky Outcome :=
  return .done (.ofText (← echo i.args))

/-! ## Excerpts -/

/-- The first lines of a text. -/
def head (text : String) (n : Nat) : Risky String :=
  return Text.head text n

/-- The last lines of a text. A difference that is none is zero here. -/
def tail (text : String) (n : Nat) : Risky String := do
  let lines := Text.segments text.toList
  let last ← elementsFrom lines (lines.length - n)
  return String.ofList last.flatten

/-- A command that shows an excerpt. -/
def excerpt (part : String → Nat → Risky String) (i : Invocation) (d : Disk) : Risky Outcome := do
  match ← lineCount Excerpt.defaultLines [] i.args with
  | .error e => return .failed e.message
  | .ok (n, operands) =>
    match Excerpt.source i d operands with
    | .error reason => return .failed reason
    | .ok text => return .done (.ofText (← part text n))

/-- How much of its input the command for the first lines reads. -/
def headDemand (args : List String) : Risky Demand := do
  match ← lineCount Excerpt.defaultLines [] args with
  | .error _ => return .everything
  | .ok (n, operands) => return if Excerpt.readsInput operands then .lines n else .everything

theorem tail_eq (text : String) (n : Nat) : tail text n = .ok (Text.tail text n) := by
  rw [tail, elementsFrom, if_pos (Nat.sub_le _ _)]
  rfl

theorem headDemand_eq (args : List String) : headDemand args = .ok (Excerpt.headDemand args) := by
  rw [headDemand, Excerpt.headDemand, lineCount_start, ok_bind]
  cases Runnel.lineCount Excerpt.defaultLines args with
  | ok answer => rfl
  | error e => rfl

theorem excerpt_eq {part : String → Nat → Risky String} {shown : String → Nat → String}
    (h : ∀ text n, part text n = .ok (shown text n)) (i : Invocation) (d : Disk) :
    excerpt part i d = .ok (Excerpt.run shown i d) := by
  rw [excerpt, Excerpt.run, lineCount_start, ok_bind]
  cases Runnel.lineCount Excerpt.defaultLines i.args with
  | error e => rfl
  | ok answer =>
    simp only [h]
    cases Excerpt.source i d answer.2 with
    | error reason => rfl
    | ok text => rfl

/-! ## Paths -/

/-- The last component of a path, perhaps without a suffix. -/
def base (args : List String) : Risky Outcome :=
  match args with
  | [path] => return .done (.ofText (PathName.base path none ++ "\n"))
  | [path, suffix] => return .done (.ofText (PathName.base path (some suffix) ++ "\n"))
  | [] => return .failed "missing operand"
  | _ => return .failed ("extra operand '" ++ (← element args 2) ++ "'")

/-- What stands before the last component of a path. -/
def directory (path : String) : Risky String :=
  let kept := PathName.trimmed path.toList
  if kept.isEmpty then return if path.toList.head? == some '/' then "/" else "."
  else
    match Text.lastPosition? '/' kept with
    | none => return "."
    | some position => do
      let (front, _) ← Text.cut kept position
      let parent := PathName.trimmed front
      return if parent.isEmpty then "/" else String.ofList parent

/-- What stands before the last components of several paths, a line for each. -/
def directoryLines : List String → Risky String
  | [] => return ""
  | path :: rest => do
    let shown ← directory path
    let more ← directoryLines rest
    return shown ++ "\n" ++ more

/-- The command for what stands before the last components. -/
def directories (i : Invocation) : Risky Outcome :=
  if i.args.isEmpty then return .failed "missing operand"
  else return .done (.ofText (← directoryLines i.args))

theorem directory_eq (path : String) : directory path = .ok (PathName.directory path) := by
  obtain ⟨chars, rfl⟩ : ∃ chars, path = String.ofList chars :=
    ⟨path.toList, String.ofList_toList.symm⟩
  by_cases hkept : PathName.trimmed chars = []
  · simp [directory, PathName.directory, hkept]
  rw [PathName.directory_ofList hkept, PathName.parent, directory, String.toList_ofList]
  have hpath := PathName.front_append (PathName.trimmed chars)
  have hslash := PathName.slash_not_mem (PathName.trimmed chars)
  simp only [List.isEmpty_iff, if_neg hkept]
  rcases PathName.front_cases (PathName.trimmed chars) with hfront | ⟨more, hfront⟩
  · rw [hfront, List.nil_append] at hpath
    rw [hpath, ← Text.lastPosition?_eq_none_iff] at hslash
    rw [hslash, hfront]
    rfl
  · have hfound : Text.lastPosition? '/' (PathName.trimmed chars) = some (Text.width more) := by
      rw [← hpath, hfront, List.append_assoc]
      exact Text.lastPosition?_append more hslash
    have hcut : Text.cut (PathName.trimmed chars) (Text.width more) =
        .ok (more, '/' :: PathName.lastComponent (PathName.trimmed chars)) := by
      rw [Text.cut_eq_ok_iff]
      refine ⟨?_, rfl⟩
      conv => lhs; rw [← hpath, hfront, List.append_assoc]
      rfl
    -- the slash itself is cut off by one and trimmed by the other
    have htrimmed : PathName.trimmed (more ++ ['/']) = PathName.trimmed more := by
      rw [PathName.trimmed_eq, PathName.trimmed_eq]
      exact List.rdropWhile_concat_pos _ _ _ rfl
    rw [hfront, if_neg (by simp), htrimmed]
    simp only [hfound, hcut, ok_bind, pure_eq]

theorem directoryLines_eq (paths : List String) :
    directoryLines paths =
      .ok (String.join (paths.map fun path => PathName.directory path ++ "\n")) := by
  induction paths with
  | nil => rfl
  | cons path rest ih =>
    rw [directoryLines, directory_eq, ok_bind, ih]
    simp

/-! ## Numbers -/

/-- Floating-point numbers. Those that were counted have to stay below what 64 bits hold. -/
def decimalsFrom (first step last : Float) : Nat → Nat → Risky (List Float)
  | 0, _ => .error .arithmetic
  | fuel + 1, i =>
    let n := first + step * Float.ofNat i
    if (step > 0 && n > last + Sequence.tolerance) || (step < 0 && n < last - Sequence.tolerance)
    then return []
    else do
      let more ← decimalsFrom first step last fuel (i + 1)
      return n :: more

/-- The numbers from one text to another, counted in floating-point numbers. -/
def decimals (first step last : String) : Risky (Except Sequence.CountError String) :=
  match Sequence.number first, Sequence.number step, Sequence.number last with
  | .ok first, .ok step, .ok last =>
    if step == 0 then return .error .zeroStep
    else do
      let numbers ← decimalsFrom first step last Sequence.decimalLimit 0
      return .ok (String.join (numbers.map fun n => Number.floatText n ++ "\n"))
  | .error e, _, _ => return .error e
  | _, .error e, _ => return .error e
  | _, _, .error e => return .error e

/-- The numbers from one text to another. Whole ones are added with a check. -/
def between (first step last : String) : Risky (Except Sequence.CountError String) :=
  match Number.readInt64? first, Number.readInt64? step, Number.readInt64? last with
  | some first, some step, some last => return Sequence.integers first step last
  | _, _, _ => decimals first step last

/-- The numbers that arguments ask for. -/
def sequence (args : List String) : Risky (Except Sequence.CountError String) :=
  match args with
  | [last] => between "1" "1" last
  | [first, last] => between first "1" last
  | [first, step, last] => between first step last
  | [] => return .error .missingOperand
  | _ => return .error (.extraOperand (← element args 3))

/-- The command that counts. -/
def count (i : Invocation) : Risky Outcome := do
  match ← sequence i.args with
  | .ok shown => return .done (.ofText shown)
  | .error e => return .failed e.message

theorem between_eq {first step last : String} (hfirst : ∃ n, Number.readInt64? first = some n)
    (hstep : ∃ n, Number.readInt64? step = some n) (hlast : ∃ n, Number.readInt64? last = some n) :
    between first step last = .ok (Sequence.between first step last) := by
  obtain ⟨first, hfirst⟩ := hfirst
  obtain ⟨step, hstep⟩ := hstep
  obtain ⟨last, hlast⟩ := hlast
  rw [between, Sequence.between, hfirst, hstep, hlast]
  rfl

theorem sequence_eq {args : List String} (h : Sequence.Whole args) :
    sequence args = .ok (Sequence.text args) := by
  have hone : ∃ n, Number.readInt64? "1" = some n := ⟨1, by decide⟩
  match args with
  | [] => rfl
  | [last] =>
    have hwhole := h (by simp) (by simp)
    exact between_eq hone hone (hwhole last (by simp))
  | [first, last] =>
    have hwhole := h (by simp) (by simp)
    exact between_eq (hwhole first (by simp)) hone (hwhole last (by simp))
  | [first, step, last] =>
    have hwhole := h (by simp) (by simp)
    exact between_eq (hwhole first (by simp)) (hwhole step (by simp)) (hwhole last (by simp))
  | _ :: _ :: _ :: _ :: _ => rfl

/-- The exit code that an argument asks for. -/
def exit (i : Invocation) : Risky Outcome :=
  match i.args with
  | [] => return .done (.ofCode i.status)
  | arg :: _ =>
    match Number.readInt64? arg with
    | some n => return .done (.ofCode (← remainder n Surroundings.codeCount))
    | none => return .done (.ofMessage ("exit: " ++ arg ++ ": numeric argument required\n") 2)

theorem remainder_codeCount (n : Int) :
    remainder n Surroundings.codeCount = .ok (n % Surroundings.codeCount) :=
  if_neg (by simp [Surroundings.codeCount])

/-! ## Conditions and directories -/

/-- The command that tests a condition. It takes no step that could break it down. -/
def condition (i : Invocation) (d : Disk) : Risky Outcome :=
  match Condition.operands? i.name i.args with
  | none => return .done (.ofMessage "[: missing ']'\n" 2)
  | some args =>
    match Condition.evaluate (fun path => d.stat (i.resolve path)) args with
    | .ok true => return .done (.ofCode 0)
    | .ok false => return .done (.ofCode 1)
    | .error e => return .done (.ofMessage (i.name ++ ": " ++ e.message ++ "\n") 2)

/-- The command that changes the working directory. It takes no step that could break it down. -/
def changeDirectory (i : Invocation) (d : Disk) : Risky Outcome :=
  match Surroundings.homeOr i with
  | .error reason => return .failed reason
  | .ok target =>
    let path := i.resolve target
    if !d.isDirectory path then return .failed (target ++ ": No such file or directory")
    else
      match d.canonical? path with
      | .ok dir => return .done { Output.ofCode 0 with chdir := some dir }
      | .error _ => return .done { Output.ofCode 0 with chdir := some path }

/-! ## All calls -/

/-- A call that reads all of its input. -/
def reading (run : Invocation → Disk → Risky Outcome) : RiskyCall :=
  ⟨fun _ => return .everything, run⟩

/-- The calls by name. -/
def calls : List (String × RiskyCall) := [
  ("echo", reading fun i _ => print i),
  ("seq", reading fun i _ => count i),
  ("head", ⟨headDemand, excerpt head⟩),
  ("tail", reading (excerpt tail)),
  ("basename", reading fun i _ => base i.args),
  ("dirname", reading fun i _ => directories i),
  ("sleep", reading fun i _ => sleep i),
  ("test", reading condition),
  ("[", reading condition),
  ("exit", reading fun i _ => exit i),
  ("cd", reading changeDirectory)]

/-- No step breaks a command down, and it ends where its steps lead to, with a value or an error. -/
def Settles (steps : RiskyCall) (handler : Handler) (i : Invocation) (d : Disk) : Prop :=
  ∃ call, handler = .call call ∧
    steps.demand i.args = .ok (call.demand i.args) ∧ call.demand i.args ≠ .crash ∧
    steps.run i d = .ok (call.run i d).1 ∧ ∀ message, (call.run i d).1 ≠ .crashed message

/-- A sum breaks a command down. -/
def Overflows (steps : RiskyCall) (handler : Handler) (i : Invocation) (d : Disk) : Prop :=
  ∃ call, handler = .call call ∧ steps.run i d = .error .arithmetic ∧
    (call.run i d).1 = .crashed (some "overflow when adding durations")

section

variable (i : Invocation) (d : Disk)

theorem settles_reading {steps : Invocation → Disk → Risky Outcome}
    {ends : Invocation → Disk → Outcome}
    (h : steps i d = .ok (ends i d) ∧ ∀ message, ends i d ≠ .crashed message) :
    Settles (reading steps) (.reading ends) i d :=
  ⟨_, rfl, rfl, nofun, h⟩

theorem print_settles : Settles (reading fun i _ => print i) Echo.handler i d := by
  apply settles_reading
  dsimp only
  rw [print, echo_eq]
  exact ⟨rfl, nofun⟩

theorem count_settles (h : Sequence.Whole i.args) :
    Settles (reading fun i _ => count i) Sequence.handler i d := by
  apply settles_reading
  dsimp only
  rw [count, sequence_eq h, ok_bind]
  cases Sequence.text i.args with
  | ok shown => exact ⟨rfl, nofun⟩
  | error e => exact ⟨rfl, nofun⟩

theorem run_ne_crashed (shown : String → Nat → String) (message : Option String) :
    Excerpt.run shown i d ≠ .crashed message := by
  rw [Excerpt.run]
  cases Runnel.lineCount Excerpt.defaultLines i.args with
  | error e => exact nofun
  | ok answer =>
    dsimp only
    cases Excerpt.source i d answer.2 with
    | error reason => exact nofun
    | ok text => exact nofun

theorem headDemand_ne_crash (args : List String) : Excerpt.headDemand args ≠ .crash := by
  rw [Excerpt.headDemand]
  cases Runnel.lineCount Excerpt.defaultLines args with
  | error e => exact nofun
  | ok answer =>
    dsimp only
    split
    · exact nofun
    · exact nofun

theorem head_settles : Settles ⟨headDemand, excerpt head⟩ Excerpt.headHandler i d :=
  ⟨_, rfl, headDemand_eq i.args, headDemand_ne_crash i.args, excerpt_eq (fun _ _ => rfl) i d,
    run_ne_crashed i d _⟩

theorem tail_settles : Settles (reading (excerpt tail)) Excerpt.tailHandler i d :=
  settles_reading i d ⟨excerpt_eq tail_eq i d, run_ne_crashed i d _⟩

theorem base_settles : Settles (reading fun i _ => base i.args) PathName.baseHandler i d := by
  apply settles_reading
  dsimp only
  match i.args with
  | [] => exact ⟨rfl, nofun⟩
  | [_] => exact ⟨rfl, nofun⟩
  | [_, _] => exact ⟨rfl, nofun⟩
  | _ :: _ :: _ :: _ => exact ⟨rfl, nofun⟩

theorem directories_settles :
    Settles (reading fun i _ => directories i) PathName.directoryHandler i d := by
  apply settles_reading
  dsimp only
  rw [directories, directoryLines_eq]
  split
  · exact ⟨rfl, nofun⟩
  · exact ⟨rfl, nofun⟩

theorem condition_settles : Settles (reading condition) Condition.handler i d := by
  apply settles_reading
  rw [condition]
  cases Condition.operands? i.name i.args with
  | none => exact ⟨rfl, nofun⟩
  | some args =>
    dsimp only
    cases Condition.evaluate (fun path => d.stat (i.resolve path)) args with
    | ok holds =>
      cases holds with
      | true => exact ⟨rfl, nofun⟩
      | false => exact ⟨rfl, nofun⟩
    | error e => exact ⟨rfl, nofun⟩

theorem exit_settles : Settles (reading fun i _ => exit i) Surroundings.exitHandler i d := by
  apply settles_reading
  dsimp only
  rw [exit]
  cases i.args with
  | nil => exact ⟨rfl, nofun⟩
  | cons arg rest =>
    dsimp only
    cases Number.readInt64? arg with
    | none => exact ⟨rfl, nofun⟩
    | some n =>
      dsimp only
      rw [remainder_codeCount]
      exact ⟨rfl, nofun⟩

theorem changeDirectory_settles : Settles (reading changeDirectory) Surroundings.cdHandler i d := by
  apply settles_reading
  dsimp only
  rw [changeDirectory]
  cases Surroundings.homeOr i with
  | error reason => exact ⟨rfl, nofun⟩
  | ok target =>
    dsimp only
    split
    · exact ⟨rfl, nofun⟩
    · cases d.canonical? (i.resolve target) with
      | ok dir => exact ⟨rfl, nofun⟩
      | error e => exact ⟨rfl, nofun⟩

theorem sleep_settles (h : ¬ Waiting.Overlong i.args) :
    Settles (reading fun i _ => sleep i) Waiting.sleepHandler i d := by
  apply settles_reading
  dsimp only
  rw [sleep]
  split
  · exact ⟨rfl, nofun⟩
  · rcases total_of_not_overlong (by decide) h with
      ⟨length, hsteps, hread⟩ | ⟨reason, hsteps, hread⟩
    · rw [hsteps, hread]
      exact ⟨rfl, nofun⟩
    · rw [hsteps, hread]
      exact ⟨rfl, nofun⟩

theorem sleep_overflows (h : Waiting.Overlong i.args) :
    Overflows (reading fun i _ => sleep i) Waiting.sleepHandler i d := by
  refine ⟨_, rfl, ?_⟩
  have hargs : i.args ≠ [] := by
    intro hnil
    rw [hnil] at h
    exact Waiting.not_overlongAfter_nil (by decide) h
  obtain ⟨hsteps, hread⟩ := total_of_overlong (by decide) h
  simp only [reading, sleep, List.isEmpty_iff, if_neg hargs, hsteps, hread]
  exact ⟨rfl, trivial⟩

end

/-- The command of this name takes these steps. It settles, but for a pause that is too long. -/
def Takes (i : Invocation) (d : Disk) (name : String) (steps : RiskyCall) : Prop :=
  ∃ handler, standardHandlers.lookup name = some handler ∧
    ((name = "seq" → Sequence.Whole i.args) →
      (¬ (name = "sleep" ∧ Waiting.Overlong i.args) → Settles steps handler i d) ∧
      (name = "sleep" ∧ Waiting.Overlong i.args → Overflows steps handler i d))

section

variable {i : Invocation} {d : Disk}

theorem takes_of_settles {name : String} {steps : RiskyCall} {handler : Handler}
    (hlookup : standardHandlers.lookup name = some handler) (hname : name ≠ "sleep")
    (h : (name = "seq" → Sequence.Whole i.args) → Settles steps handler i d) :
    Takes i d name steps :=
  ⟨handler, hlookup, fun hwhole => ⟨fun _ => h hwhole, fun hlong => absurd hlong.1 hname⟩⟩

theorem takes_sleep : Takes i d "sleep" (reading fun i _ => sleep i) :=
  ⟨Waiting.sleepHandler, rfl, fun _ =>
    ⟨fun h => sleep_settles i d fun hlong => h ⟨rfl, hlong⟩, fun h => sleep_overflows i d h.2⟩⟩

end

/-- Flags are always split, lines are always counted, and calls always end with a value or an error,
except for pauses whose parts are too long together: these break down. -/
theorem calls_settle (i : Invocation) (d : Disk) (known : List Char) (default : Nat) :
    splitFlags known [] [] true i.args = .ok (Runnel.splitFlags known i.args) ∧
    lineCount default [] i.args = .ok (Runnel.lineCount default i.args) ∧
    ∀ call ∈ calls, Takes i d call.1 call.2 := by
  refine ⟨splitFlags_start known i.args, lineCount_start default i.args, ?_⟩
  simp only [calls, List.forall_mem_cons, List.not_mem_nil, false_imp_iff, implies_true, and_true]
  refine ⟨?echo, ?seq, ?head, ?tail, ?basename, ?dirname, takes_sleep, ?test, ?bracket, ?exit, ?cd⟩
  case echo => exact takes_of_settles rfl (by decide) fun _ => print_settles i d
  case seq => exact takes_of_settles rfl (by decide) fun h => count_settles i d (h rfl)
  case head => exact takes_of_settles rfl (by decide) fun _ => head_settles i d
  case tail => exact takes_of_settles rfl (by decide) fun _ => tail_settles i d
  case basename => exact takes_of_settles rfl (by decide) fun _ => base_settles i d
  case dirname => exact takes_of_settles rfl (by decide) fun _ => directories_settles i d
  case test => exact takes_of_settles rfl (by decide) fun _ => condition_settles i d
  case bracket => exact takes_of_settles rfl (by decide) fun _ => condition_settles i d
  case exit => exact takes_of_settles rfl (by decide) fun _ => exit_settles i d
  case cd => exact takes_of_settles rfl (by decide) fun _ => changeDirectory_settles i d

/-- Nothing is added where the sum would not fit any more. -/
theorem calls_settle_near_limit :
    ("seq", reading fun i _ => count i) ∈ calls ∧
      Sequence.Whole ["9223372036854775800", "5", "9223372036854775807"] ∧
      ∃ handler, standardHandlers.lookup "seq" = some handler ∧
        Settles (reading fun i _ => count i) handler
          ⟨"seq", ["9223372036854775800", "5", "9223372036854775807"], "", "/", [], 0⟩ .empty := by
  have hmem : ("seq", reading fun i _ => count i) ∈ calls := .tail _ (.head _)
  have hwhole : Sequence.Whole ["9223372036854775800", "5", "9223372036854775807"] := by
    intro _ _
    simp only [List.forall_mem_cons, List.not_mem_nil, false_imp_iff, implies_true, and_true]
    exact ⟨⟨9223372036854775800, by decide⟩, ⟨5, by decide⟩, ⟨9223372036854775807, by decide⟩⟩
  obtain ⟨-, -, htakes⟩ := calls_settle
    ⟨"seq", ["9223372036854775800", "5", "9223372036854775807"], "", "/", [], 0⟩ .empty [] 0
  obtain ⟨handler, hlookup, h⟩ := htakes _ hmem
  refine ⟨hmem, hwhole, handler, hlookup, (h fun _ => hwhole).1 ?_⟩
  exact fun hlong => absurd hlong.1 (by decide)

theorem not_settles_of_overflows {steps : RiskyCall} {handler : Handler} {i : Invocation} {d : Disk}
    (h : Overflows steps handler i d) : ¬ Settles steps handler i d := by
  obtain ⟨call, -, hsteps, -⟩ := h
  rintro ⟨_, -, -, -, hrun, -⟩
  rw [hsteps] at hrun
  cases hrun

/-- Each part is a span of time, and still the command breaks down. -/
theorem sleep_overflows_twice :
    ("sleep", reading fun i _ => sleep i) ∈ calls ∧
      standardHandlers.lookup "sleep" = some Waiting.sleepHandler ∧
      Overflows (reading fun i _ => sleep i) Waiting.sleepHandler
        ⟨"sleep", ["1e19", "1e19"], "", "/", [], 0⟩ .empty ∧
      ¬ Settles (reading fun i _ => sleep i) Waiting.sleepHandler
        ⟨"sleep", ["1e19", "1e19"], "", "/", [], 0⟩ .empty := by
  have hread : Number.Duration.read? "1e19" = some ⟨10 ^ 28⟩ := by decide +kernel
  have hoverlong : Waiting.Overlong ["1e19", "1e19"] := by
    refine ⟨["1e19", "1e19"], [], [⟨10 ^ 28⟩, ⟨10 ^ 28⟩], rfl, ?_, by decide⟩
    rw [List.map_cons, List.map_cons, hread]
    rfl
  have hoverflows := sleep_overflows ⟨"sleep", ["1e19", "1e19"], "", "/", [], 0⟩ .empty hoverlong
  refine ⟨?_, rfl, hoverflows, not_settles_of_overflows hoverflows⟩
  simp only [calls, List.mem_cons, true_or, or_true]

end Risky
end Runnel
