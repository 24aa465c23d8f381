import Runnel.Proofs.Flow.Chaining

/-!
# Runnel.Proofs.Flow.Composing

A pipeline composes what its stages do, whatever the order in which they take their steps.

* `Chain.Position`: how far a pipeline is. It begins, makes its channels, runs its stages side by
  side, and ends.
* `Chain.Position.step`: whoever is served, the pipeline goes on from one position to another.
* `Chain.Position.completes`: from each position it can come to its end.
-/

namespace Runnel

open Activity

namespace Work

/-! ## Branches -/

/-- The exit code at an end. -/
def endCode : Work → Int
  | .done code _ => code
  | _ => 0

/-- The exit codes of branches that have ended. -/
theorem codes?_eq_some {branches : List Work} {codes : List Int}
    (h : codes? branches = some codes) :
    (∀ b ∈ branches, b.isComplete = true) ∧ codes = branches.map endCode := by
  induction branches generalizing codes with
  | nil =>
    cases h
    exact ⟨nofun, rfl⟩
  | cons b more ih =>
    cases b with
    | done code ctx =>
      rw [codes?, Option.map_eq_some_iff] at h
      obtain ⟨rest, hrest, rfl⟩ := h
      obtain ⟨hmore, rfl⟩ := ih hrest
      exact ⟨List.forall_mem_cons.mpr ⟨rfl, hmore⟩, rfl⟩
    | _ => cases h

/-- One of the branches is served, or all of them are over. -/
theorem serves_together {branches : List Work} {next : List Int → Work} {x : Exchange} {w : Work}
    (h : Serves (.together branches next) x w) (hcrashed : branches.any hasCrashed = false) :
    (x.request = .join ∧ x.after = x.before ∧
        ∃ codes, codes? branches = some codes ∧ w = next codes) ∨
      ∃ before b b' after, branches = before ++ b :: after ∧ Serves b x b' ∧
        w = .together (before ++ b' :: after) next := by
  generalize hv : Work.together branches next = v at h
  cases h with
  | here hr hs =>
    subst hv
    rw [request?, hcrashed, Bool.or_false] at hr
    cases hcodes : codes? branches with
    | none => rw [hcodes] at hr; cases hr
    | some codes =>
      rw [hcodes, Option.isSome_some, if_pos rfl, Option.some.injEq] at hr
      simp only [serve, hcodes, Prod.mk.injEq] at hs
      exact .inl ⟨hr.symm, hs.1.symm, codes, rfl, hs.2.symm⟩
  | branch before after next h =>
    cases hv
    exact .inr ⟨before, _, _, after, rfl, h, rfl⟩

/-- One of several numbered branches changes. -/
theorem map_range_split {n : Nat} {f : Nat → Work} {before after : List Work} {b : Work}
    (h : (List.range n).map f = before ++ b :: after) :
    before.length < n ∧ b = f before.length ∧
      ∀ b', before ++ b' :: after = (List.range n).map (Function.update f before.length b') := by
  have hlength := congrArg List.length h
  simp only [List.length_map, List.length_range, List.length_append, List.length_cons] at hlength
  have hlt : before.length < n := by omega
  have hget : ∀ i, (before ++ b :: after)[i]? = if i < n then some (f i) else none := by
    intro i
    rw [← h]
    by_cases hi : i < n
    · simp [hi]
    · simp [hi]
  refine ⟨hlt, ?_, fun b' => List.ext_getElem? fun i => ?_⟩
  · have hb := hget before.length
    rw [if_pos hlt, List.getElem?_append_right (Nat.le_refl _), Nat.sub_self,
      List.getElem?_cons_zero] at hb
    exact Option.some.inj hb
  · by_cases hi : i = before.length
    · subst hi
      simp [hlt]
    · have hsame : (before ++ b' :: after)[i]? = (before ++ b :: after)[i]? := by
        rcases Nat.lt_or_gt_of_ne hi with hi | hi
        · rw [List.getElem?_append_left hi, List.getElem?_append_left hi]
        · obtain ⟨d, hd⟩ := Nat.exists_eq_add_of_lt hi
          rw [List.getElem?_append_right (by omega), List.getElem?_append_right (by omega)]
          have hsub : i - before.length = d + 1 := by omega
          rw [hsub, List.getElem?_cons_succ, List.getElem?_cons_succ]
      rw [hsame, hget]
      by_cases hin : i < n
      · simp [hin, Function.update_of_ne hi]
      · simp [hin]

end Work

open Work

namespace Chain

variable {ctx : Context} {c : Chain ctx} {base : Nat} {own : List ChannelId}
  {link : Nat → ChannelId} {point : Nat → Point ctx} {m m' : Machine} {es : List Happening}
  {drawn : Bytes} {w w' : Work} {x : Exchange}

/-! ## Positions -/

/-- The exit code of the pipeline when its first stage reads `first`. -/
def code (c : Chain ctx) (first : Bytes) : Int :=
  pipelineCode ctx.settings.pipefail (c.codes first)

/-- How far a pipeline is, with the channels that nobody else uses, the machine, what has come of
the stages so far, and what has been drawn from the input. -/
inductive Position (c : Chain ctx) (base : Nat) :
    List ChannelId → Machine → List Happening → Bytes → Work → Prop where
  /-- It has not begun. -/
  | start {own : List ChannelId} {m : Machine} (hbase : base ≤ m.channels.size)
      (hown : ∀ id ∈ own, base ≤ id) :
      Position c base own m [] [] (c.command.activity ctx c.io .done)
  /-- It makes a channel. -/
  | connecting {own : List ChannelId} {link : Nat → ChannelId} {m : Machine} (j : Nat)
      (hj : j + 1 < c.size) (h : c.Wired base own link j (fun _ => .start) m) :
      Position c base own m [] [] (c.assembly link j)
  /-- One stage more will write messages. -/
  | retaining {own : List ChannelId} {link : Nat → ChannelId} {m : Machine} (j : Nat)
      (hj : j + 1 < c.size) (h : c.Wired base own link (j + 1) (fun _ => .start) m) :
      Position c base own m [] [] (.retain c.io.stderr (c.assembly link (j + 1)))
  /-- Its stages are at work. -/
  | flowing {own : List ChannelId} {link : Nat → ChannelId} {point : Nat → Point ctx} {m : Machine}
      {es : List Happening} {drawn : Bytes} (h : c.Wired base own link (c.size - 1) point m)
      (hes : Interleaves (c.past link point) es)
      (hdrawn : c.io.stdin.Yields ((c.stage 0).standing (point 0)) drawn) :
      Position c base own m es drawn (.together (c.branches link point) (joined ctx))
  /-- It has ended. -/
  | ended {own : List ChannelId} {link : Nat → ChannelId} {m : Machine} {es : List Happening}
      {drawn : Bytes} (hnew : ∀ k, k + 1 < c.size → base ≤ link k)
      (hdistinct : ∀ i k, i + 1 < c.size → k + 1 < c.size → link i = link k → i = k)
      (hes : Interleaves (c.happenings link (c.io.stdin.input drawn)) es) :
      Position c base own m es drawn
        (.done (c.code (c.io.stdin.input drawn))
          (ctx.withStatus (c.code (c.io.stdin.input drawn))))

theorem getD_map_range {α : Type} (f : Nat → List α) (n k : Nat) :
    ((List.range n).map f).getD k [] = if k < n then f k else [] := by
  by_cases hk : k < n
  · simp [hk]
  · simp [hk]

theorem getD_past (link : Nat → ChannelId) (point : Nat → Point ctx) (k : Nat) :
    (c.past link point).getD k [] =
      if k < c.size then (c.stage k).past (c.streams link k) (point k) else [] :=
  getD_map_range ..

/-- A stage goes on to another point. -/
theorem branches_update {k : Nat} (p : Point ctx) :
    (List.range c.size).map (Function.update (c.branch link point) k
        ((c.stage k).work (c.streams link k) p)) =
      c.branches link (Function.update point k p) := by
  refine List.map_congr_left fun i _ => ?_
  by_cases hi : i = k
  · subst hi
    rw [branch, Function.update_self, Function.update_self]
  · rw [branch, Function.update_of_ne hi, Function.update_of_ne hi, branch]

theorem not_any_hasCrashed : (c.branches link point).any hasCrashed = false := by
  simp [branches, branch, CallStage.not_hasCrashed_work]

/-- The last channel has been made, or one more is needed. -/
theorem position_assembly {j : Nat} (hj : j < c.size)
    (h : c.Wired base own link j (fun _ => .start) m) :
    c.Position base own m [] [] (c.assembly link j) := by
  by_cases hlast : j + 1 = c.size
  · rw [assembly_last hlast]
    obtain rfl : j = c.size - 1 := by omega
    refine .flowing h (.nil fun k => ?_) ?_
    · rw [getD_past]
      split
      all_goals rfl
    · cases c.io.stdin with
      | bytes => nofun
      | _ => rfl
  · exact .connecting j (by omega) h

/-- Where all stages are over, each of them has read what the one before has written. -/
theorem inputs_of_isOver (h : c.Wired base own link (c.size - 1) point m)
    (hover : ∀ k < c.size, (point k).isOver = true) {k : Nat} (hk : k < c.size) :
    point k = .finished (c.inputs ((c.stage 0).standing (point 0)).taken k) := by
  have hpoint : ∀ k < c.size, point k = .finished ((c.stage k).standing (point k)).taken := by
    intro k hk
    have hk := hover k hk
    cases hp : point k with
    | finished input => rfl
    | _ => rw [hp] at hk; cases hk
  induction k with
  | zero => exact hpoint 0 hk
  | succ k ih =>
    have ih := ih (by omega)
    have hnext := hpoint (k + 1) hk
    obtain ⟨-, htaken⟩ := (h.linked k (by omega)).taken_eq (by rw [hnext]; rfl)
    rw [hnext, htaken, ih]
    rfl

/-- The stages are over: the pipeline has ended. -/
theorem position_joined (h : c.Wired base own link (c.size - 1) point m)
    (hes : Interleaves (c.past link point) es)
    (hdrawn : c.io.stdin.Yields ((c.stage 0).standing (point 0)) drawn) {codes : List Int}
    (hcodes : codes? (c.branches link point) = some codes) (own' : List ChannelId) :
    c.Position base own' m es drawn (joined ctx codes) := by
  obtain ⟨hcomplete, rfl⟩ := codes?_eq_some hcodes
  have hover : ∀ k < c.size, (point k).isOver = true := fun k hk => by
    have hk := hcomplete (c.branch link point k) (List.mem_map_of_mem (List.mem_range.mpr hk))
    rwa [branch, CallStage.isComplete_work] at hk
  have hpoint := fun k hk => inputs_of_isOver h hover (k := k) hk
  have hzero := hpoint 0 (Nat.lt_of_lt_of_le Nat.zero_lt_two c.two_le_size)
  rw [hdrawn.taken_eq (by rw [hzero]; rfl)] at hpoint
  generalize hfirst : c.io.stdin.input drawn = first at hpoint
  have hends : (c.branches link point).map endCode = c.codes first := by
    rw [branches, List.map_map, codes]
    refine List.map_congr_left fun k hk => ?_
    rw [Function.comp_apply, branch, hpoint k (List.mem_range.mp hk)]
    rfl
  have hpast : c.past link point = c.happenings link first := by
    refine List.map_congr_left fun k hk => ?_
    rw [hpoint k (List.mem_range.mp hk)]
    rfl
  rw [hends]
  rw [hpast, ← hfirst] at hes
  rw [← hfirst]
  exact .ended (fun k hk => h.base_le_link (by omega))
    (fun i k hi hk => h.injective i (by omega) k (by omega)) hes

/-- A stage takes a step. -/
theorem position_flowing (hio : c.io.Within fun id => id < base)
    (h : c.Wired base own link (c.size - 1) point x.before)
    (hes : Interleaves (c.past link point) es)
    (hdrawn : c.io.stdin.Yields ((c.stage 0).standing (point 0)) drawn) {k : Nat} (hk : k < c.size)
    (hx : Serves (c.branch link point k) x w) (hready : c.Ready x.before) :
    ∃ p, w = (c.stage k).work (c.streams link k) p ∧ x.made = [] ∧
      c.Wired base own link (c.size - 1) (Function.update point k p) x.after ∧
      Interleaves (c.past link (Function.update point k p)) (es ++ x.happenings) ∧
      c.io.stdin.Yields ((c.stage 0).standing (Function.update point k p 0))
        (drawn ++ x.drawn c.io.stdin) := by
  obtain ⟨hr, hafter, rfl⟩ := CallStage.step_of_serves hx (hready k hk)
  refine ⟨_, rfl, CallStage.made_eq_nil hr, hafter ▸ h.step hio hk,
    hes.append k _ (fun j hj => ?_) ?_, ?_⟩
  · rw [getD_past, getD_past, Function.update_of_ne hj]
  · rw [getD_past, getD_past, if_pos hk, if_pos hk, Function.update_self]
    exact CallStage.past_step hr x.after
  · by_cases hzero : k = 0
    · subst hzero
      have hyields := CallStage.yields_step (m := x.before) hr hdrawn
      rw [← hafter] at hyields
      rw [Function.update_self]
      exact hyields
    · -- the others read from the links
      rw [Function.update_of_ne (Ne.symm hzero), Exchange.drawn_eq_nil fun lines gathered heq => ?_,
        List.append_nil]
      · exact hdrawn
      · rw [heq] at hr
        obtain ⟨k, rfl⟩ := Nat.exists_eq_succ_of_ne_zero hzero
        have hsource : c.io.stdin = .channel (link k) := (CallStage.eq_reading hr).2
        have hold := hio.stdin
        rw [hsource] at hold
        exact absurd hold (Nat.not_lt_of_le (h.base_le_link (by omega)))

/-- Whoever is served, the pipeline goes on from one position to another. -/
theorem Position.step (hio : c.io.Within fun id => id < base) (h : c.Position base own m es drawn w)
    (hx : Serves w x w') (hm : m.Spares own x.before) (hready : c.Ready x.before) :
    c.Position base (own ++ x.made) x.after (es ++ x.happenings) (drawn ++ x.drawn c.io.stdin)
      w' := by
  cases h with
  | start hbase hown =>
    have hwired := (wired_zero (c := c) (fun _ => 0) (fun _ => .start) hbase hown).spared hm
    have htoken := (hready 0 (Nat.lt_of_lt_of_le Nat.zero_lt_two c.two_le_size)).token
    rw [c.activity_eq fun _ => 0] at hx
    obtain ⟨before, request, after⟩ := x
    cases hx with
    | here hr hs =>
      cases hr
      simp only [serve, htoken, Bool.false_eq_true, if_false, Prod.mk.injEq] at hs
      obtain ⟨rfl, rfl⟩ := hs
      rw [Exchange.drawn_eq_nil (by simp)]
      simp only [Exchange.made, Exchange.happenings, List.append_nil]
      exact position_assembly (Nat.lt_of_lt_of_le Nat.zero_lt_two c.two_le_size) hwired
  | connecting j hj hwired =>
    rw [assembly_connect hj] at hx
    obtain ⟨before, request, after⟩ := x
    cases hx with
    | here hr hs =>
      cases hr
      simp only [serve, Prod.mk.injEq] at hs
      obtain ⟨rfl, rfl⟩ := hs
      rw [Exchange.drawn_eq_nil (by simp)]
      simp only [Exchange.made, Exchange.happenings, List.append_nil]
      exact .retaining j hj (hwired.spared hm).connect
  | retaining j hj hwired =>
    obtain ⟨before, request, after⟩ := x
    cases hx with
    | here hr hs =>
      cases hr
      simp only [serve, Prod.mk.injEq] at hs
      obtain ⟨rfl, rfl⟩ := hs
      rw [Exchange.drawn_eq_nil (by simp)]
      simp only [Exchange.made, Exchange.happenings, List.append_nil]
      have htouches := Machine.retain_touches before hio.stderr
      exact position_assembly hj ((hwired.spared hm).touched htouches fun _ => id)
  | flowing hwired hes hdrawn =>
    replace hwired := hwired.spared hm
    rcases serves_together hx not_any_hasCrashed with
      ⟨hr, hafter, codes, hcodes, rfl⟩ | ⟨before, b, b', after, hsplit, hb, rfl⟩
    · have hnone : x.happenings = [] := by rw [Exchange.happenings, hr]
      rw [hnone, x.drawn_eq_nil (by simp [hr]), List.append_nil, List.append_nil, hafter]
      exact position_joined hwired hes hdrawn hcodes _
    · obtain ⟨hk, rfl, hupdate⟩ := map_range_split hsplit
      obtain ⟨p, rfl, hmade, hwired, hes, hdrawn⟩ :=
        position_flowing hio hwired hes hdrawn hk hb hready
      rw [hupdate, branches_update, hmade, List.append_nil]
      exact .flowing hwired hes hdrawn
  | ended =>
    cases hx with
    | here hr => cases hr

theorem ready_of_keeps (h : c.Ready m) (hm : Machine.Keeps m m') : c.Ready m' :=
  fun k hk => ⟨by rw [Machine.isSet, hm.tokens]; exact (h k hk).token,
    by rw [hm.registry]; exact (h k hk).found⟩

/-- A run leads from one position to another. What may come after it is what may come after its last
exchange. -/
theorem Position.run (hio : c.io.Within fun id => id < base) {xs : List Exchange}
    (h : c.Position base own m es drawn w) (hruns : Runs w xs w') (hprivate : Private own m xs)
    (hm : c.Ready m) (hready : ∀ x ∈ xs, c.Ready x.before) :
    ∃ own' m', c.Position base own' m' (es ++ Work.happenings xs)
        (drawn ++ Work.drawn c.io.stdin xs) w' ∧ c.Ready m' ∧
      ∀ ys, Private own' m' ys → Private own m (xs ++ ys) := by
  induction hruns generalizing own m es drawn with
  | none w => exact ⟨own, m, by simpa [Work.happenings, Work.drawn] using h, hm, fun ys hys => hys⟩
  | @serve w w₁ w' x xs hx _ ih =>
    obtain ⟨hspares, hprivate⟩ := hprivate
    obtain ⟨hx', hxs⟩ := List.forall_mem_cons.mp hready
    obtain ⟨own', m', hposition, hm', hmore⟩ :=
      ih (h.step hio hx hspares hx') hprivate (ready_of_keeps hx' hx.keeps) hxs
    refine ⟨own', m', ?_, hm', fun ys hys => ⟨hspares, hmore ys hys⟩⟩
    simpa [Work.happenings, Work.drawn] using hposition

/-! ## No stage waits for ever -/

/-- With a machine that is ready at each exchange, and without others at the links, the work can
come to its end. -/
def Completes (c : Chain ctx) (own : List ChannelId) (m : Machine) (w : Work) : Prop :=
  ∃ xs w', Runs w xs w' ∧ w'.isComplete = true ∧ Private own m xs ∧ ∀ x ∈ xs, c.Ready x.before

theorem Completes.serve (hx : Serves w x w') (hspares : m.Spares own x.before)
    (hready : c.Ready x.before) (h : c.Completes (own ++ x.made) x.after w') :
    c.Completes own m w := by
  obtain ⟨xs, w'', hruns, hcomplete, hprivate, hxs⟩ := h
  exact ⟨x :: xs, w'', .serve hx hruns, hcomplete, ⟨hspares, hprivate⟩,
    List.forall_mem_cons.mpr ⟨hready, hxs⟩⟩

/-- The machine in whose next turn nothing but the links holds a stage up: all older channels are
deserted, and this moment has come. -/
def eased (m : Machine) (base moment : Nat) : Machine :=
  { m with
    budget := Machine.turnBudget
    clock := max m.clock moment
    channels :=
      m.channels.mapIdx fun id channel => if id < base then Machine.deserted else channel }

theorem channel_eased {id : ChannelId} (hid : base ≤ id) (moment : Nat) :
    (eased m base moment).channel id = m.channel id := by
  by_cases hlt : id < m.channels.size
  · simp [eased, Machine.channel, hlt, Nat.not_lt_of_le hid]
  · simp [eased, Machine.channel, hlt]

theorem channel_eased_of_lt {id : ChannelId} (hbase : base ≤ m.channels.size) (hid : id < base)
    (moment : Nat) : (eased m base moment).channel id = Machine.deserted := by
  simp [eased, Machine.channel, Nat.lt_of_lt_of_le hid hbase, hid]

theorem spares_eased (hown : ∀ id ∈ own, base ≤ id) (moment : Nat) :
    m.Spares own (eased m base moment) :=
  ⟨by simp [eased], fun id hid => channel_eased (hown id hid) moment⟩

theorem ready_eased (h : c.Ready m) (moment : Nat) : c.Ready (eased m base moment) :=
  fun k hk => ⟨(h k hk).token, (h k hk).found⟩

/-- On such a machine the first stage that is not over gets on. -/
theorem rank_eased (hio : c.io.Within fun id => id < base)
    (h : c.Wired base own link (c.size - 1) point m) {k : Nat} (hk : k < c.size)
    (hbefore : ∀ i < k, (point i).isOver = true) (hp : (point k).isOver = false) :
    ((c.stage k).step (c.streams link k) (point k) (eased m base (point k).moment)).2.rank <
      (point k).rank := by
  have hdeserted : c.io.Within fun id =>
      (eased m base (point k).moment).channel id = Machine.deserted :=
    hio.mono fun id hid => channel_eased_of_lt h.base_le hid _
  have hwired := h.spared (spares_eased h.own_new (point k).moment)
  have hbudget : (eased m base (point k).moment).budget = 128 := rfl
  have hclock : (point k).moment ≤ (eased m base (point k).moment).clock := Nat.le_max_right ..
  generalize eased m base (point k).moment = m' at *
  refine CallStage.rank_step hp ?_ ?_ ?_ hclock
  · exact Machine.exists_delivered_of_deserted (by omega) hdeserted.stderr
  · intro hwriting hsent
    show ∀ ticket data, ∃ ok, (m'.write (c.sink link k) ticket data).2 = .delivered ok
    rw [sink]
    split
    · intro ticket data
      exact Machine.exists_delivered_of_link (by omega) (hwired.linked k (by omega)) hwriting hsent
    · exact Machine.exists_delivered_of_deserted (by omega) hdeserted.stdout
  · intro hreading
    cases k with
    | zero => exact Machine.enough_of_deserted (by omega) hdeserted.stdin _
    | succ k =>
      -- the stage before is over, so nothing more comes
      have hover := hbefore k (Nat.lt_succ_self k)
      have hleft : ((c.stage k).standing (point k)).writing = false := by
        cases hpk : point k with
        | finished input => rfl
        | _ => rw [hpk] at hover; cases hover
      exact Machine.enough_of_link (by omega) (hwired.lt_size k (by omega))
        (hwired.linked k (by omega)) hreading hleft

/-- One of several numbered branches. -/
theorem exists_map_range_split {n k : Nat} (f : Nat → Work) (hk : k < n) :
    ∃ before after, (List.range n).map f = before ++ f k :: after ∧ before.length = k := by
  obtain ⟨d, rfl⟩ := Nat.exists_eq_add_of_lt hk
  refine ⟨(List.range k).map f, ((List.range d).map fun i => k + 1 + i).map f, ?_, by simp⟩
  rw [Nat.add_assoc, Nat.add_comm d 1, ← Nat.add_assoc, List.range_add, List.range_succ]
  simp

/-- Where all stages are over, the pipeline comes to its end at once. -/
theorem completes_joined (hm : c.Ready m) (hover : ∀ k < c.size, (point k).isOver = true) :
    c.Completes own m (.together (c.branches link point) (joined ctx)) := by
  have hcomplete : ∀ b ∈ c.branches link point, b.isComplete = true := by
    intro b hb
    obtain ⟨k, hk, rfl⟩ := List.mem_map.mp hb
    rw [branch, CallStage.isComplete_work]
    exact hover k (List.mem_range.mp hk)
  rcases codes?_eq_some_or_hasCrashed hcomplete with ⟨codes, hcodes⟩ | hcrashed
  · have hserves : Serves (.together (c.branches link point) (joined ctx)) ⟨m, .join, m⟩
        (joined ctx codes) := .here (by simp [request?, hcodes]) (by simp [serve, hcodes])
    exact ⟨_, _, .one hserves, rfl, ⟨.refl own m, trivial⟩, by simpa using hm⟩
  · rw [not_any_hasCrashed] at hcrashed
    cases hcrashed

/-- Serving a stage serves the pipeline. -/
theorem serves_branches (next : List Int → Work) {k : Nat} (hk : k < c.size) {p : Point ctx}
    (h : Serves (c.branch link point k) x ((c.stage k).work (c.streams link k) p)) :
    Serves (.together (c.branches link point) next) x
      (.together (c.branches link (Function.update point k p)) next) := by
  obtain ⟨before, after, hsplit, rfl⟩ := exists_map_range_split (c.branch link point) hk
  have hupdate := (map_range_split hsplit).2.2
    ((c.stage before.length).work (c.streams link before.length) p)
  rw [branches_update] at hupdate
  rw [← hupdate, branches, hsplit]
  exact .branch before after next h

/-- One stage is served first. -/
theorem Completes.step {k : Nat} (hk : k < c.size) (hp : (point k).isOver = false)
    (hspares : m.Spares own m') (hready : c.Ready m')
    (h : c.Ready ((c.stage k).step (c.streams link k) (point k) m').1 →
      c.Completes own ((c.stage k).step (c.streams link k) (point k) m').1
        (.together (c.branches link
          (Function.update point k ((c.stage k).step (c.streams link k) (point k) m').2))
          (joined ctx))) :
    c.Completes own m (.together (c.branches link point) (joined ctx)) := by
  obtain ⟨r, hr⟩ : ∃ r, ((c.stage k).work (c.streams link k) (point k)).request? = some r :=
    CallStage.exists_request hp
  have hx := CallStage.serves_step (hready k hk) hr
  refine .serve (serves_branches (joined ctx) hk hx) hspares hready ?_
  rw [CallStage.made_eq_nil hr, List.append_nil]
  exact h (ready_of_keeps hready hx.keeps)

/-- The stages come to their ends one after the other, each of them in a few steps. -/
theorem completes_flowing (hio : c.io.Within fun id => id < base) (left : Nat) {k : Nat}
    (hleft : c.size - k = left) (h : c.Wired base own link (c.size - 1) point m)
    (hm : c.Ready m) (hbefore : ∀ i < k, (point i).isOver = true) :
    c.Completes own m (.together (c.branches link point) (joined ctx)) := by
  induction left generalizing k point m with
  | zero => exact completes_joined hm fun i hi => hbefore i (by omega)
  | succ left ih =>
    -- the steps of this stage
    induction hrank : (point k).rank using Nat.strongRecOn generalizing point m with
    | _ rank ihrank =>
      by_cases hp : (point k).isOver = true
      · refine ih (k := k + 1) (by omega) h hm fun i hi => ?_
        rcases Nat.lt_succ_iff_lt_or_eq.mp hi with hi | rfl
        · exact hbefore i hi
        · exact hp
      · have hk : k < c.size := by omega
        have hspares : m.Spares own (eased m base (point k).moment) := spares_eased h.own_new _
        rw [Bool.not_eq_true] at hp
        refine .step hk hp hspares (ready_eased hm _) fun hready =>
          ihrank _ ?_ ((h.spared hspares).step hio hk) hready ?_ rfl
        · rw [Function.update_self, ← hrank]
          exact rank_eased hio h hk hbefore hp
        · intro i hi
          rw [Function.update_of_ne (Nat.ne_of_lt hi)]
          exact hbefore i hi

/-- Serving a stage's writer to come. -/
theorem Completes.retain (sink : Sink) (hm : c.Ready m)
    (h : c.Ready (m.retain sink) → c.Completes own (m.retain sink) w) :
    c.Completes own m (.retain sink w) := by
  have hx : Serves (.retain sink w) ⟨m, .retain sink, m.retain sink⟩ w := .here rfl rfl
  refine .serve hx (.refl own m) hm ?_
  rw [Exchange.made, List.append_nil]
  exact h (ready_of_keeps hm hx.keeps)

/-- The channels are made one after the other. -/
theorem completes_assembly (hio : c.io.Within fun id => id < base) (left : Nat) {j : Nat}
    (hleft : c.size - j = left) (hj : j < c.size)
    (h : c.Wired base own link j (fun _ => .start) m) (hm : c.Ready m) :
    c.Completes own m (c.assembly link j) := by
  induction left generalizing j own link m with
  | zero => omega
  | succ left ih =>
    by_cases hlast : j + 1 = c.size
    · rw [assembly_last hlast]
      obtain rfl : j = c.size - 1 := by omega
      exact completes_flowing hio _ rfl h hm (k := 0) nofun
    · rw [assembly_connect (by omega)]
      have hx : Serves (.connect fun id => .retain c.io.stderr (c.assembly
          (Function.update link j id) (j + 1))) ⟨m, .connect, (m.newChannel pipeCapacity).2⟩ _ :=
        .here rfl rfl
      refine .serve hx (.refl own m) hm (.retain _ (ready_of_keeps hm hx.keeps) fun hready => ?_)
      have htouches := Machine.retain_touches (m.newChannel pipeCapacity).2 hio.stderr
      exact ih (by omega) (by omega) (h.connect.touched htouches fun _ => id) hready

/-- From each position the pipeline can come to its end. -/
theorem Position.completes (hio : c.io.Within fun id => id < base)
    (h : c.Position base own m es drawn w) (hm : c.Ready m) : c.Completes own m w := by
  have hzero : 0 < c.size := Nat.lt_of_lt_of_le Nat.zero_lt_two c.two_le_size
  cases h with
  | start hbase hown =>
    have hwired := wired_zero (c := c) (fun _ => 0) (fun _ => .start) hbase hown
    have hx : Serves (c.command.activity ctx c.io .done) ⟨m, .ask ctx.token, m⟩
        (c.assembly (fun _ => 0) 0) := by
      rw [c.activity_eq fun _ => 0]
      refine .here rfl ?_
      simp [serve, (hm 0 hzero).token]
    refine .serve hx (.refl own m) hm ?_
    rw [Exchange.made, List.append_nil]
    exact completes_assembly hio _ rfl hzero hwired hm
  | connecting j hj hwired => exact completes_assembly hio _ rfl (by omega) hwired hm
  | retaining j hj hwired =>
    refine .retain _ hm fun hready => ?_
    have htouches := Machine.retain_touches m hio.stderr
    exact completes_assembly hio _ rfl hj (hwired.touched htouches fun _ => id) hready
  | flowing hwired =>
    exact completes_flowing hio _ rfl hwired hm (k := 0) fun i hi => absurd hi (Nat.not_lt_zero i)
  | ended => exact ⟨[], _, .none _, rfl, trivial, by simp⟩

end Chain
end Runnel
