import Runnel.Command.Deferral
import Runnel.Command.Parse
import Runnel.Command.Quote
import Runnel.Flow.Work

/-!
# Runnel.Flow.Activity

What command trees do. An activity is work that starts in a state, uses streams, and goes on with an
exit code and a state; it lets go of its streams before it goes on.

* `Activity.sequence`, `Activity.pipeline`, `Activity.subshell`: activities made of others.
* `Activity.simple`: a command with its redirects, built in or not.
* `Command.activity`: the activity of a tree.
-/

namespace Runnel

/-- Work that starts in a state, uses streams, and goes on with an exit code and a state. -/
abbrev Activity : Type := Context → Streams → (Int → Context → Work) → Work

namespace Activity

/-- An activity that is not begun once the token is set. -/
def guarded (a : Activity) : Activity := fun ctx io next =>
  .ask ctx.token fun cancelled =>
    if cancelled then Work.releaseAll io (next ctx.status ctx) else a ctx io next

/-! ## Sequences -/

/-- A failure ends the sequence, if nothing depends on it. -/
def stopsSequence (ctx : Context) (code : Int) (rest : List (Connector × Activity)) : Bool :=
  code != 0 && ctx.settings.errexit &&
    match rest with
    | (.and, _) :: _ | (.or, _) :: _ => false
    | _ => true

/-- The members behind one that ended with `code`. None of them gets input. -/
def sequenceRest (stdout stderr : Sink) (next : Int → Context → Work) :
    Context → Int → List (Connector × Activity) → Work
  | ctx, code, [] => .release stdout (.release stderr (next code ctx))
  | ctx, code, (connector, a) :: rest =>
    if !connector.admits code then sequenceRest stdout stderr next ctx code rest
    else
      .ask ctx.token fun cancelled =>
        if cancelled then .release stdout (.release stderr (next code ctx))
        else
          .retain stdout (.retain stderr
            (a ctx ⟨.empty, stdout, stderr⟩ fun code ctx =>
              let ctx := ctx.withStatus code
              if stopsSequence ctx code rest then
                .release stdout (.release stderr (next code ctx))
              else sequenceRest stdout stderr next ctx code rest))

/-- Activities one after the other, as their connectors demand. Only the first one gets input. -/
def sequence (first : Activity) (rest : List (Connector × Activity)) : Activity :=
  fun ctx io next =>
    .retain io.stdout (.retain io.stderr
      (first ctx io fun code ctx =>
        let ctx := ctx.withStatus code
        if stopsSequence ctx code rest then
          .release io.stdout (.release io.stderr (next code ctx))
        else sequenceRest io.stdout io.stderr next ctx code rest))

/-! ## Pipelines -/

/-- The exit code of a pipeline whose stages ended with these codes. -/
def pipelineCode (pipefail : Bool) (codes : List Int) : Int :=
  if pipefail then (codes.reverse.find? (· != 0)).getD 0 else codes.getLast?.getD 0

/-- Connects stages; `branches` are those before them, last one first. -/
def connectStages (ctx : Context) (stdout stderr : Sink) (next : List Work → Work) :
    Source → List Work → List Activity → Work
  | input, branches, [] =>
    .abandon input (.release stdout (.release stderr (next branches.reverse)))
  | input, branches, [a] => next ((a ctx ⟨input, stdout, stderr⟩ .done :: branches).reverse)
  | input, branches, a :: rest =>
    .connect fun id => .retain stderr
      (connectStages ctx stdout stderr next (.channel id)
        (a ctx ⟨input, .channel id .stdout, stderr⟩ .done :: branches) rest)

/-- Activities side by side, each of which reads the output of the one before. What they do to the
state is lost. -/
def pipeline (stages : List Activity) : Activity := fun ctx io next =>
  connectStages ctx io.stdout io.stderr
    (fun branches => .together branches fun codes =>
      let code := pipelineCode ctx.settings.pipefail codes
      next code (ctx.withStatus code))
    io.stdin [] stages

/-! ## Subshells -/

/-- An activity whose changes to the state are lost. -/
def subshell (body : Activity) : Activity := fun ctx io next =>
  body ctx io fun code _ => next code (ctx.withStatus code)

/-! ## Simple commands -/

/-- Lets go of the streams and ends. -/
def finish (io : Streams) (code : Int) (ctx : Context) (next : Int → Context → Work) : Work :=
  Work.releaseAll io (next code (ctx.withStatus code))

/-- Ends with a message and the code one. -/
def complain (message : String) : Activity := fun ctx io next =>
  Work.say io.stderr message (finish io 1 ctx next)

/-- What is said of an unset variable. -/
def unboundMessage (name : String) : String :=
  name ++ ": unbound variable\n"

/-- How a redirect opens its file for writing. -/
def outputMode : RedirectMode → Disk.OutputMode
  | .append => .append
  | _ => .overwrite

/-- Opens the files of redirects one after the other, up to the first that fails. -/
def redirected (body : Activity) : List Redirect → Activity
  | [], ctx, io, next => body ctx io next
  | r :: rest, ctx, io, next =>
    match ctx.expand r.target with
    | .error name => complain (unboundMessage name) ctx io next
    | .ok fields =>
      let target := Text.joinWith " " fields
      let failure := fun e : SystemError => target ++ ": " ++ e.message ++ "\n"
      match r.mode with
      | .input =>
        .rest false (.load (ctx.resolve target) fun loaded =>
          match loaded with
          | .error e => complain (failure e) ctx io next
          | .ok bytes =>
            .abandon io.stdin (redirected body rest ctx { io with stdin := .bytes bytes } next))
      | mode =>
        .rest false (.openFile (ctx.resolve target) (outputMode mode) fun opened =>
          match opened with
          | .error e => complain (failure e) ctx io next
          | .ok handle =>
            .release io.stdout (redirected body rest ctx { io with stdout := .file handle } next))

/-- What is said when a built-in command breaks down. -/
def crashMessage (message : Option String) : String :=
  message.getD "handler panicked"

/-- What is said when a built-in command fails. -/
def failureMessage (name reason : String) : String :=
  name ++ ": " ++ reason ++ "\n"

/-- Delivers what a call hands back. -/
def deliver (o : Output) : Activity := fun ctx io next =>
  .write none io.stdout o.stdout fun _ =>
    .write none io.stderr o.stderr fun _ =>
      finish io o.code (ctx.enter o.chdir) next

/-- Ends as a call has ended. A pause is over before the call has ended. -/
def conclude (name : String) (outcome : Outcome) : Activity := fun ctx io next =>
  match outcome with
  | .done output => deliver output ctx io next
  | .failed reason => complain (failureMessage name reason) ctx io next
  | .crashed message => complain (failureMessage name (crashMessage message)) ctx io next
  | .pause length complete cutShort =>
    .pause length none ctx.token fun cut =>
      deliver (.ofCode (if cut then cutShort else complete)) ctx io next

/-- Ends as a generator has ended. -/
def concludeGenerator (name : String) (ending : GeneratorEnd) : Activity := fun ctx io next =>
  match ending with
  | .code n => finish io n ctx next
  | .failed reason => complain (failureMessage name reason) ctx io next
  | .crashed message => complain (failureMessage name (crashMessage message)) ctx io next

/-- The input that a handler reads, or `none` if the question breaks it down. -/
def demanded (handler : Handler) (args : List String) : Option (Option Nat) :=
  match handler with
  | .generator _ => some none
  | .call c =>
    match c.demand args with
    | .everything => some none
    | .lines n => some (some n)
    | .crash => none

/-- Runs a built-in command: it reads its input first. -/
def builtin (name : String) (handler : Handler) (args : List String) : Activity :=
  fun ctx io next =>
    match demanded handler args with
    | none => .crash
    | some lines =>
      .read io.stdin lines [] fun bytes =>
        let io := { io with stdin := .empty }
        let i : Invocation :=
          ⟨name, args, Text.decodeLossy bytes, ctx.cwd, ctx.env, ctx.status⟩
        match handler with
        | .call c => .call c i fun outcome => conclude name outcome ctx io next
        | .generator g =>
          .generate g i io.stdout io.stderr ctx.token ⟨0, false, false⟩ none fun ending =>
            .release io.stdout
              (concludeGenerator name ending ctx { io with stdout := .discard } next)

/-- The exit code of a program that was cancelled before it was started. -/
def cancelledCode : Int := 143

/-- The exit code of a program that cannot be started. -/
def launchFailureCode : SystemError → Int
  | .noEntry => 127
  | _ => 126

/-- Starts a program and delivers what it writes. -/
def program (l : Launch) : Activity := fun ctx io next =>
  .ask ctx.token fun cancelled =>
    if cancelled then finish io cancelledCode ctx next
    else
      .launch { l with stdin := io.stdin } ctx.group fun started =>
        let io := { io with stdin := .empty }
        match started with
        | .error e =>
          Work.say io.stderr (failureMessage l.name e.message)
            (finish io (launchFailureCode e) ctx next)
        | .ok attendance =>
          .attend io.stdout io.stderr ctx.group ctx.token attendance fun code =>
            finish io code ctx next

/-- The exit code of a name without a program. -/
def notFoundCode : Int := 127

/-- Runs the program of a name. -/
def namedProgram (name : String) (args : List String) : Activity := fun ctx io next =>
  .seek (ctx.env.get? "PATH") ctx.cwd name fun found =>
    match found with
    | none =>
      Work.say io.stderr (failureMessage name "command not found")
        (finish io notFoundCode ctx next)
    | some path => program ⟨name, path, args, ctx.cwd, ctx.env, .empty⟩ ctx io next

/-- Hands text to the real shell. -/
def realShell (text : String) : Activity := fun ctx io next =>
  program ⟨ctx.program.path, ctx.program.path, ctx.program.args ++ [text], ctx.cwd, ctx.env, .empty⟩
    ctx io next

/-- The command as a trace shows it. -/
def traceLine (words : List String) : String :=
  "+ " ++ quoteAll words ++ "\n"

/-- Shows a command if asked to. -/
def traced (words : List String) (body : Activity) : Activity := fun ctx io next =>
  if ctx.settings.xtrace then Work.say io.stderr (traceLine words) (body ctx io next)
  else body ctx io next

/-- Runs a command, built in or not, whose words are expanded. No words do nothing. -/
def invoke : List String → Activity
  | [], ctx, io, next => finish io 0 ctx next
  | name :: args, ctx, io, next =>
    traced (name :: args)
      (fun ctx io next =>
        let found := fun handler : Option Handler =>
          match handler with
          | some handler => builtin name handler args ctx io next
          | none => namedProgram name args ctx io next
        if ctx.builtins then .lookUp name found else found none)
      ctx io next

/-- A command with its arguments and redirects. Words are expanded before any file is opened. -/
def simple (name : Word) (args : List Word) (redirects : List Redirect) : Activity :=
  fun ctx io next =>
    match ctx.expandAll (name :: args) with
    | .error unset => complain (unboundMessage unset) ctx io next
    | .ok words => redirected (invoke words) redirects ctx io next

end Activity

namespace Command

mutual

/-- What a command line does. -/
def activity : Command → Activity
  | .simple name args redirects => .guarded (.simple name args redirects)
  | .pipeline stages => .guarded (.pipeline (activities stages))
  | .sequence first rest => .guarded (.sequence (activity first) (memberActivities rest))
  | .subshell body => .guarded (.subshell (activity body))

/-- What command lines do. -/
def activities : List Command → List Activity
  | [] => []
  | c :: rest => activity c :: activities rest

/-- What the members of a sequence do. -/
def memberActivities : List (Connector × Command) → List (Connector × Activity)
  | [] => []
  | (connector, c) :: rest => (connector, activity c) :: memberActivities rest

end

end Command

/-- What text does as a command line: it is run here if it has a tree and no real shell is needed,
and it is handed to the real shell otherwise. Without operators all text goes to the real shell. -/
def lineActivity (text : String) (operators : Bool) : Activity := fun ctx io next =>
  let run : Activity :=
    if !operators || needsRealShell text.toList then .realShell text
    else
      match parse text with
      | .ok tree => tree.activity
      | .error .empty => fun ctx io next => Work.releaseAll io (next 0 ctx)
      | .error _ => .realShell text
  if ctx.settings.verbose then Work.say io.stderr (text ++ "\n") (run ctx io next)
  else run ctx io next

end Runnel
