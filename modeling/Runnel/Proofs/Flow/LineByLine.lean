import Runnel.Proofs.Command.LineBreak
import Runnel.Proofs.Flow.TreeRuns
import Runnel.Proofs.Flow.Grafting

/-!
# Runnel.Proofs.Flow.LineByLine

A script is its lines, run one after the other. Two lines of text have one tree, a sequence. As
long as the token is not set, and without `errexit`, this sequence deals with the machine as the two
lines do that are run one after the other: the first one with the input, the second one in the state
that the first one leaves behind and without input.

* `Work.Finishes`: the dealings of work with the machine, up to its end.
* `Work.Alike`: work that cannot be told apart by its dealings.
* `lineActivity_newline`: two lines are one line and then the other.
-/

namespace Runnel
namespace Work

/-! ## Dealings -/

/-- Requests that make no difference to others as long as somebody else writes to the same sinks,
nor to who makes them as long as the token is not set. -/
def Request.isSilent : Request → Bool
  | .ask _ | .retain _ | .release _ => true
  | _ => false

/-- The runs of work that come to an end while the token is not set: the exchanges in them but for
the silent ones, and the end. -/
def Finishes (token : TokenId) (w : Work) (ys : List Exchange) (w' : Work) : Prop :=
  w'.isComplete = true ∧ ∃ xs, Runs w xs w' ∧ (∀ x ∈ xs, x.before.isSet token = false) ∧
    ys = xs.filter fun x => !x.request.isSilent

/-- Work that has the same runs while the token is not set. -/
def Alike (token : TokenId) (w v : Work) : Prop :=
  ∀ ys w', Finishes token w ys w' ↔ Finishes token v ys w'

section

variable {token : TokenId} {w next v u : Work} {ys : List Exchange}

theorem Alike.refl (w : Work) : Alike token w w := fun _ _ => Iff.rfl

theorem Alike.symm (h : Alike token w v) : Alike token v w := fun ys w' => (h ys w').symm

theorem Alike.trans (h : Alike token w v) (h' : Alike token v u) : Alike token w u :=
  fun ys w' => (h ys w').trans (h' ys w')

/-- A silent request with one answer does not count. -/
theorem alike_of_silent {r : Request} (hr : w.request? = some r) (hsilent : r.isSilent = true)
    (hbranch : ∀ branches next, w ≠ .together branches next)
    (hserve : ∀ m, m.isSet token = false → (w.serve m).2 = next) : Alike token w next := by
  intro ys w'
  constructor
  · rintro ⟨hw', xs, hruns, hxs, rfl⟩
    cases hruns with
    | none =>
      cases w with
      | done | crash => cases hr
      | _ => cases hw'
    | @serve _ _ _ x xs hx hruns =>
      cases hx with
      | branch => exact absurd rfl (hbranch _ _)
      | here hr' hs =>
        obtain rfl := hserve _ (hxs _ List.mem_cons_self)
        rw [hs]
        rw [hr'] at hr
        cases hr
        refine ⟨hw', xs, hruns, fun x hx => hxs x (List.mem_cons_of_mem _ hx), ?_⟩
        rw [List.filter_cons_of_neg (by simp [hsilent])]
  · rintro ⟨hw', xs, hruns, hxs, rfl⟩
    have hm : (Machine.ofDisk .empty .empty).isSet token = false := rfl
    obtain rfl := hserve _ hm
    have hx : Serves w ⟨.ofDisk .empty .empty, r, (w.serve (.ofDisk .empty .empty)).1⟩ _ :=
      .here hr rfl
    refine ⟨hw', _, .serve hx hruns, ?_, ?_⟩
    · exact List.forall_mem_cons.mpr ⟨hm, hxs⟩
    · rw [List.filter_cons_of_neg (by simp [hsilent])]

theorem alike_retain (sink : Sink) (next : Work) : Alike token (.retain sink next) next :=
  alike_of_silent rfl rfl (by simp) fun _ _ => rfl

theorem alike_release (sink : Sink) (next : Work) : Alike token (.release sink next) next :=
  alike_of_silent rfl rfl (by simp) fun _ _ => rfl

theorem alike_ask {asked : TokenId} (h : asked = token) (next : Bool → Work) :
    Alike token (.ask asked next) (next false) :=
  alike_of_silent rfl rfl (by simp) fun m hm => by rw [serve, h, hm]

/-- Work with more work at its ends comes to one of its ends and then goes on, or it breaks down on
the way. -/
theorem finishes_graft {next : Int → Context → Work} :
    Finishes token (w.graft next) ys v ↔
      (∃ zs code ctx zs', Finishes token w zs (.done code ctx) ∧
        Finishes token (next code ctx) zs' v ∧ ys = zs ++ zs') ∨
      Finishes token w ys .crash ∧ v = .crash := by
  constructor
  · rintro ⟨hv, xs, hruns, hxs, rfl⟩
    rcases runs_graft hruns hv with ⟨zs, code, ctx, zs', hzs, hzs', rfl⟩ | ⟨hcrash, rfl⟩
    · rw [List.forall_mem_append] at hxs
      rw [List.filter_append]
      exact .inl ⟨_, code, ctx, _, ⟨rfl, zs, hzs, hxs.1, rfl⟩, ⟨hv, zs', hzs', hxs.2, rfl⟩, rfl⟩
    · exact .inr ⟨⟨rfl, xs, hcrash, hxs, rfl⟩, rfl⟩
  · rintro (⟨_, code, ctx, _, ⟨-, zs, hzs, hx, rfl⟩, ⟨hv, zs', hzs', hx', rfl⟩, rfl⟩ |
      ⟨⟨-, xs, hcrash, hxs, rfl⟩, rfl⟩)
    · refine ⟨hv, zs ++ zs', (hzs.graft next).trans hzs', ?_, (List.filter_append ..).symm⟩
      exact List.forall_mem_append.mpr ⟨hx, hx'⟩
    · exact ⟨rfl, xs, hcrash.graft next, hxs, rfl⟩

/-- What follows may be exchanged for work that is alike, wherever the work before can end. -/
theorem alike_graft {k k' : Int → Context → Work}
    (h : ∀ ys code ctx, Finishes token w ys (.done code ctx) →
      Alike token (k code ctx) (k' code ctx)) :
    Alike token (w.graft k) (w.graft k') := by
  intro ys v
  rw [finishes_graft, finishes_graft]
  refine or_congr_left ⟨?_, ?_⟩
  · rintro ⟨zs, code, ctx, zs', hzs, hzs', rfl⟩
    exact ⟨zs, code, ctx, zs', hzs, (h zs code ctx hzs zs' v).mp hzs', rfl⟩
  · rintro ⟨zs, code, ctx, zs', hzs, hzs', rfl⟩
    exact ⟨zs, code, ctx, zs', hzs, (h zs code ctx hzs zs' v).mpr hzs', rfl⟩

theorem Alike.graft {w w' : Work} (h : Alike token w w') (k : Int → Context → Work) :
    Alike token (w.graft k) (w'.graft k) := by
  intro ys v
  simp only [finishes_graft, h _ _]

end

end Work

/-! ## Sequences -/

/-- The token of the state is this one, and failures do not stop anything. -/
structure Context.Lenient (token : TokenId) (ctx : Context) : Prop where
  token : ctx.token = token
  errexit : ctx.settings.errexit = false

theorem Context.Leads.lenient {token : TokenId} {ctx ctx' : Context} {code : Int}
    (h : ctx.Leads code ctx') (hctx : ctx.Lenient token) : ctx'.Lenient token :=
  ⟨h.token.trans hctx.token, by rw [h.settings, hctx.errexit]⟩

namespace Activity

open Work

/-- What follows is grafted onto the activity, and it leaves behind only what commands may
change. -/
structure Proper (a : Activity) : Prop where
  continues : Continues a
  leads : ∀ {token ctx io ys code ctx'}, Finishes token (a ctx io .done) ys (.done code ctx') →
    ctx.Leads code ctx'

theorem proper_activity (c : Command) : Proper c.activity where
  continues := c.activity_continues
  leads := by
    rintro token ctx io ys code ctx' ⟨-, xs, hruns, hxs, -⟩
    obtain ⟨events, hsteps⟩ := hruns.steps (P := fun m => m.isSet token = false) hxs
    exact Command.leads_of_steps hsteps

theorem memberActivities_append (cs ds : List (Connector × Command)) :
    Command.memberActivities (cs ++ ds) =
      Command.memberActivities cs ++ Command.memberActivities ds := by
  induction cs with
  | nil => simp [Command.memberActivities]
  | cons c cs ih => simp [Command.memberActivities, ih]

theorem proper_memberActivities (cs : List (Connector × Command)) :
    ∀ m ∈ Command.memberActivities cs, Proper m.2 := by
  induction cs with
  | nil => simp [Command.memberActivities]
  | cons c cs ih =>
    simp only [Command.memberActivities, List.forall_mem_cons]
    exact ⟨proper_activity c.2, ih⟩

section

variable {token : TokenId} {a g : Activity} {ctx : Context} {stdout stderr : Sink}

theorem not_stopsSequence (h : ctx.Lenient token) (code : Int)
    (rest : List (Connector × Activity)) : stopsSequence ctx code rest = false := by
  simp [stopsSequence, h.errexit]

/-- Behind a member a sequence goes on with the next one, whatever the code is. -/
theorem alike_member (ha : Proper a) (hctx : ctx.Lenient token) (io : Streams)
    (rest : List (Connector × Activity)) :
    Alike token
      (a ctx io fun code ctx =>
        if stopsSequence (ctx.withStatus code) code rest then
          .release stdout (.release stderr (.done code (ctx.withStatus code)))
        else sequenceRest stdout stderr .done (ctx.withStatus code) code rest)
      (a ctx io fun code ctx => sequenceRest stdout stderr .done ctx code rest) := by
  rw [ha.continues, ha.continues _ _ fun code ctx => sequenceRest ..]
  refine alike_graft fun ys code ctx' h => ?_
  have hleads := ha.leads h
  rw [hleads.withStatus_eq, not_stopsSequence (hleads.lenient hctx)]
  exact .refl _

/-- Members that come behind a semicolon are run after the others. -/
theorem alike_sequenceRest (hg : Proper g) (more : List (Connector × Activity))
    {rest : List (Connector × Activity)} (hrest : ∀ m ∈ rest, Proper m.2)
    (hctx : ctx.Lenient token) (code : Int) :
    Alike token (sequenceRest stdout stderr .done ctx code (rest ++ (.next, g) :: more))
      ((sequenceRest stdout stderr .done ctx code rest).graft fun _ ctx =>
        g ctx ⟨.empty, stdout, stderr⟩ fun code ctx =>
          sequenceRest stdout stderr .done ctx code more) := by
  induction rest generalizing ctx code with
  | nil =>
    have hmember := @alike_member _ _ _ stdout stderr hg hctx ⟨.empty, stdout, stderr⟩ more
    refine .trans ?_ ((alike_release _ _).trans (alike_release _ _)).symm
    exact (alike_ask hctx.token _).trans
      ((alike_retain _ _).trans ((alike_retain _ _).trans hmember))
  | cons m rest ih =>
    obtain ⟨connector, b⟩ := m
    have hb : Proper b := hrest (connector, b) List.mem_cons_self
    have hrest := fun m hm => hrest m (List.mem_cons_of_mem _ hm)
    simp only [List.cons_append, sequenceRest]
    split
    · exact ih hrest hctx code
    · -- both ask, and then run the same member
      refine (alike_ask hctx.token _).trans (.trans ?_ (alike_ask hctx.token _).symm)
      simp only [Bool.false_eq_true, if_false]
      refine (alike_retain _ _).trans ((alike_retain _ _).trans ?_)
      refine .trans ?_ ((alike_retain _ _).trans (alike_retain _ _)).symm
      refine (alike_member hb hctx _ _).trans (.trans ?_ ((alike_member hb hctx _ _).graft _).symm)
      rw [hb.continues.graft_eq, hb.continues,
        hb.continues _ _ fun code ctx => (sequenceRest ..).graft _]
      exact alike_graft fun ys code ctx' h => ih hrest ((hb.leads h).lenient hctx) code

/-- A line runs its first member, and then those behind it. -/
theorem alike_ofSequence (f : Command) (rs : List (Connector × Command))
    (hctx : ctx.Lenient token) (io : Streams) :
    Alike token ((Command.ofSequence f rs).activity ctx io .done)
      (f.activity ctx io fun code ctx =>
        sequenceRest io.stdout io.stderr .done ctx code (Command.memberActivities rs)) := by
  have hf := proper_activity f
  cases rs with
  | nil =>
    simp only [Command.ofSequence, Command.memberActivities, sequenceRest]
    rw [hf.continues, hf.continues _ _ fun code ctx => .release ..]
    exact alike_graft fun _ _ _ _ => ((alike_release _ _).trans (alike_release _ _)).symm
  | cons r rs =>
    simp only [Command.ofSequence, Command.activity]
    refine (alike_ask hctx.token _).trans ?_
    simp only [Bool.false_eq_true, if_false, sequence]
    refine (alike_retain _ _).trans ((alike_retain _ _).trans ?_)
    exact alike_member hf hctx io _

/-- Two lines as one sequence are run one after the other. -/
theorem alike_sequence_append (f g : Command) (rs ss : List (Connector × Command))
    (hctx : ctx.Lenient token) (io : Streams) :
    Alike token ((Command.sequence f (rs ++ (.next, g) :: ss)).activity ctx io .done)
      (((Command.ofSequence f rs).activity ctx io .done).graft fun _ ctx' =>
        (Command.ofSequence g ss).activity ctx' { io with stdin := .empty } .done) := by
  have hf := proper_activity f
  have hline := alike_ofSequence f (rs ++ (.next, g) :: ss) hctx io
  have hsequence : Command.ofSequence f (rs ++ (.next, g) :: ss) =
      .sequence f (rs ++ (.next, g) :: ss) := by cases rs <;> rfl
  rw [hsequence, memberActivities_append] at hline
  refine hline.trans ?_
  let second : Int → Context → Work := fun _ ctx =>
    g.activity ctx ⟨.empty, io.stdout, io.stderr⟩ fun code ctx =>
      sequenceRest io.stdout io.stderr .done ctx code (Command.memberActivities ss)
  have hboth : Alike token
      (f.activity ctx io fun code ctx => sequenceRest io.stdout io.stderr .done ctx code
        (Command.memberActivities rs ++ Command.memberActivities ((.next, g) :: ss)))
      ((f.activity ctx io fun code ctx =>
        sequenceRest io.stdout io.stderr .done ctx code (Command.memberActivities rs)).graft
          second) := by
    rw [hf.continues.graft_eq, hf.continues,
      hf.continues _ _ fun code ctx => (sequenceRest ..).graft second]
    refine alike_graft fun ys code ctx' h => ?_
    rw [Command.memberActivities]
    exact alike_sequenceRest (proper_activity g) _ (proper_memberActivities rs)
      ((hf.leads h).lenient hctx) code
  refine hboth.trans (((alike_ofSequence f rs hctx io).graft second).symm.trans ?_)
  refine alike_graft fun ys code ctx' h => ?_
  have hleads := (proper_activity (Command.ofSequence f rs)).leads h
  exact (alike_ofSequence g ss (hleads.lenient hctx) { io with stdin := .empty }).symm

end

end Activity

open Work Activity

/-- Without `verbose` a line that has a tree and needs no real shell does what its tree does. -/
theorem lineActivity_eq {text : String} {tree : Command} (h : parse text = .ok tree)
    (hneeds : needsRealShell text.toList = false) {ctx : Context}
    (hverbose : ctx.settings.verbose = false) (io : Streams) (next : Int → Context → Work) :
    lineActivity text true ctx io next = tree.activity ctx io next := by
  simp [lineActivity, hneeds, h, hverbose]

/-- Two lines of text, of which the first one does not end with a backslash, deal with the machine
as the one line does that is run with the input, and then the other one, in the state that the first
one leaves behind and without input. -/
theorem lineActivity_newline {a b : String} {c d : Command} (ha : parse a = .ok c)
    (hb : parse b = .ok d) (hback : a.toList.getLast? ≠ some '\\')
    (hna : needsRealShell a.toList = false) (hnb : needsRealShell b.toList = false)
    (hnab : needsRealShell (a ++ "\n" ++ b).toList = false) {ctx : Context}
    (herr : ctx.settings.errexit = false) (hverbose : ctx.settings.verbose = false) (io : Streams)
    (ys : List Exchange) (w : Work) :
    Finishes ctx.token (lineActivity (a ++ "\n" ++ b) true ctx io .done) ys w ↔
      (∃ zs code ctx' zs',
        Finishes ctx.token (lineActivity a true ctx io .done) zs (.done code ctx') ∧
        Finishes ctx.token (lineActivity b true ctx' { io with stdin := .empty } .done) zs' w ∧
        ys = zs ++ zs') ∨
      Finishes ctx.token (lineActivity a true ctx io .done) ys .crash ∧ w = .crash := by
  obtain ⟨f, rs, g, ss, rfl, rfl, hab⟩ := parse_newline ha hb hback
  rw [lineActivity_eq hab hnab hverbose, lineActivity_eq ha hna hverbose, ← finishes_graft]
  refine ((alike_sequence_append f g rs ss ⟨rfl, herr⟩ io).trans (alike_graft ?_)) ys w
  intro zs code ctx' h
  have hleads := (proper_activity (Command.ofSequence f rs)).leads h
  rw [lineActivity_eq hb hnb (by rw [hleads.settings, hverbose])]
  exact .refl _

/-- The first line ends in a comment, and the second one begins with an empty line. -/
theorem lineActivity_newline_comment :
    let word := fun text => (⟨[.literal text], false⟩ : Word)
    let ctx : Context := ⟨"/", [], 0, Settings.off, true, ⟨"/bin/sh", ["-c"]⟩, 0, 0⟩
    let io : Streams := ⟨.bytes [97], .discard, .discard⟩
    parse "cat # all" = .ok (.simple (word "cat") [] []) ∧
    parse "\nfalse" = .ok (.simple (word "false") [] []) ∧
    ∃ ys zs code ctx' zs',
      Finishes 0 (lineActivity ("cat # all" ++ "\n" ++ "\nfalse") true ctx io .done) ys
        (.done 1 { ctx with status := 1 }) ∧
      Finishes 0 (lineActivity "cat # all" true ctx io .done) zs (.done code ctx') ∧
      Finishes 0 (lineActivity "\nfalse" true ctx' { io with stdin := .empty } .done) zs'
        (.done 1 { ctx with status := 1 }) ∧
      ys = zs ++ zs' := by
  intro word ctx io
  have single : ∀ {w : Word}, w.isAssignment = false → ∀ rest,
      Grammar.Pipeline (.word w :: rest) (.simple w [] []) rest :=
    fun hw rest => .stages (.simple (.word (.none rest)) hw) (.none rest)
  have ha : parse "cat # all" = .ok (.simple (word "cat") [] []) :=
    parse_of_derived rfl (.members (single rfl _) (.none _))
  have hb : parse "\nfalse" = .ok (.simple (word "false") [] []) :=
    parse_of_derived rfl (.members (single rfl _) (.none _))
  have hab : parse ("cat # all" ++ "\n" ++ "\nfalse") =
      .ok (.sequence (.simple (word "cat") [] []) [(.next, .simple (word "false") [] [])]) :=
    parse_of_derived rfl (.members (single rfl _) (.member rfl (single rfl _) (.none _)))
  -- one turn runs both lines
  let cat := Handler.pure fun _ => .done (.ofBytes [98])
  let fail := Handler.pure fun _ => .done (.ofCode 1)
  let m := Machine.ofDisk .empty (Registry.empty.registerAll 0 [("cat", cat), ("false", fail)])
  obtain ⟨xs, hruns, hlinked⟩ := advance_runs
    (lineActivity ("cat # all" ++ "\n" ++ "\nfalse") true ctx io .done) m
  have hturn : ((lineActivity ("cat # all" ++ "\n" ++ "\nfalse") true ctx io .done).advance m).2 =
      .done 1 { ctx with status := 1 } := by
    rw [lineActivity_eq hab (by decide) rfl]
    simp only [Command.activity, Command.memberActivities]
    rfl
  rw [hturn] at hruns
  obtain ⟨ys, hfinishes⟩ : ∃ ys, Finishes 0
      (lineActivity ("cat # all" ++ "\n" ++ "\nfalse") true ctx io .done) ys
      (.done 1 { ctx with status := 1 }) := by
    refine ⟨_, rfl, xs, hruns, fun x hx => ?_, rfl⟩
    rw [Machine.isSet, (hruns.keeps hlinked x hx).tokens]
    rfl
  refine ⟨ha, hb, ?_⟩
  rcases (@lineActivity_newline _ _ _ _ ha hb (by decide) (by decide) (by decide) (by decide)
    ctx rfl rfl io _ _).mp hfinishes with ⟨zs, code, ctx', zs', hzs, hzs', hys⟩ | ⟨-, hw⟩
  · exact ⟨ys, zs, code, ctx', zs', hfinishes, hzs, hzs', hys⟩
  · cases hw

end Runnel
