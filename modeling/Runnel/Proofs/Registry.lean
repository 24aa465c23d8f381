import Runnel.Registry

/-!
# Runnel.Proofs.Registry

Registrations as capabilities. Several registries draw the numbers of their calls from one source,
and anyone who holds a registration may hand it to any of them, at any time. It takes away the entry
that the very call made which returned it, as long as that is there, and nothing else.

* `Registries`: several registries and the registrations that were returned so far;
  `Registries.register` and `Registries.unregister` are the calls.
* `Stands`: the call of a history that a name belongs to at its end, told from the history alone.
* `Registries.Sound`: what numbers and entries say about the history; every call keeps it
  (`Sound.register`, `Sound.unregister`).
* `registrations_are_capabilities`: the answers after any history.
-/

namespace Runnel
namespace Registry

/-! ## One registry -/

/-- No name has two entries. -/
def Unique (r : Registry) : Prop :=
  (r.entries.map Prod.fst).Nodup

theorem unique_empty : empty.Unique := List.nodup_nil

theorem lookup_filter_ne {α : Type} (entries : List (String × α)) (name name' : String) :
    (entries.filter fun e => e.1 != name).lookup name'
      = if name' = name then none else entries.lookup name' := by
  induction entries with
  | nil => simp
  | cons e entries ih =>
    obtain ⟨key, value⟩ := e
    rw [List.filter_cons, List.lookup_cons]
    by_cases hkey : key = name
    · subst hkey
      simp only [bne_self_eq_false, Bool.false_eq_true, if_false, ih]
      by_cases hname : name' = key
      · rw [if_pos hname, if_pos hname]
      · simp [hname, beq_eq_false_iff_ne.mpr hname]
    · by_cases hname : name' = key
      · simp [hname, hkey]
      · simp [List.lookup_cons, ih, hkey, beq_eq_false_iff_ne.mpr hname]

theorem lookup_erase (r : Registry) (name name' : String) :
    Registry.entry? (r.erase name) name' = if name' = name then none else r.entry? name' :=
  lookup_filter_ne r.entries name name'

theorem lookup_register (r : Registry) (serial : Nat) (name : String) (handler : Handler)
    (name' : String) :
    Registry.entry? (r.register serial name handler).2 name'
      = if name' = name then some ⟨handler, serial⟩ else r.entry? name' := by
  show ((r.erase name).entries ++ [(name, (⟨handler, serial⟩ : RegistryEntry))]).lookup name' = _
  rw [List.lookup_append]
  show (Registry.entry? (r.erase name) name').or _ = _
  rw [lookup_erase]
  by_cases h : name' = name
  · simp [h]
  · simp [h, List.lookup_cons, beq_eq_false_iff_ne.mpr h]

theorem Unique.erase {r : Registry} (h : r.Unique) (name : String) : (r.erase name).Unique :=
  (List.filter_sublist.map _).nodup h

theorem Unique.register {r : Registry} (h : r.Unique) (serial : Nat) (name : String)
    (handler : Handler) : (r.register serial name handler).2.Unique := by
  show (((r.erase name).entries ++ [(name, (⟨handler, serial⟩ : RegistryEntry))]).map
    Prod.fst).Nodup
  rw [List.map_append, List.nodup_append]
  refine ⟨h.erase name, by simp, fun key hkey name' hname => ?_⟩
  simp only [Registry.erase, List.mem_map, List.mem_filter, bne_iff_ne] at hkey
  obtain ⟨e, ⟨-, hne⟩, rfl⟩ := hkey
  simp only [List.map_cons, List.map_nil, List.mem_singleton] at hname
  rwa [hname]

theorem unregister?_eq_some {r r' : Registry} {registration : Registration} :
    r.unregister? registration = some r' ↔
      (∃ e, r.entry? registration.name = some e ∧ e.serial = registration.serial) ∧
        r' = r.erase registration.name := by
  unfold unregister?
  cases h : r.entry? registration.name with
  | none => simp
  | some e =>
    by_cases hs : e.serial = registration.serial
    · simp [hs, eq_comm]
    · simp [hs]

theorem mem_keys_iff (r : Registry) (name : String) :
    name ∈ r.entries.map Prod.fst ↔ (r.get? name).isSome = true := by
  rw [get?, Option.isSome_map, entry?]
  induction r.entries with
  | nil => simp
  | cons e entries ih =>
    obtain ⟨key, value⟩ := e
    rw [List.lookup_cons, List.map_cons, List.mem_cons, ih]
    by_cases h : name = key
    · simp [h]
    · simp [h, beq_eq_false_iff_ne.mpr h]

/-- The names are those for which there is a handler. -/
theorem mem_names_iff (r : Registry) (name : String) :
    name ∈ r.names ↔ (r.get? name).isSome = true := by
  rw [names, Disk.sortedNames, List.mem_mergeSort, mem_keys_iff]

/-- They are sorted, and none is there twice. -/
theorem Unique.sorted_names {r : Registry} (h : r.Unique) : r.names.Pairwise (· < ·) := by
  have hsorted : r.names.Pairwise fun a b => (!(decide (b < a))) = true := by
    refine List.pairwise_mergeSort (fun a b c hab hbc => ?_) (fun a b => ?_) _
    · simp only [Bool.not_eq_true', decide_eq_false_iff_not, String.not_lt] at hab hbc ⊢
      exact String.le_trans hab hbc
    · simp only [Bool.or_eq_true, Bool.not_eq_true', decide_eq_false_iff_not, String.not_lt]
      exact String.le_total a b
  have hne : r.names.Pairwise (· ≠ ·) := (List.mergeSort_perm _ _).nodup_iff.mpr h
  refine (hsorted.and hne).imp fun {a b} hab => ?_
  obtain ⟨hle, hne⟩ := hab
  simp only [Bool.not_eq_true', decide_eq_false_iff_not, String.not_lt] at hle
  exact Std.lt_of_le_of_ne hle hne

end Registry

/-! ## Histories -/

/-- A call to one of several registries. -/
inductive RegistryCall (ι : Type) where
  /-- Registers a handler under a name. -/
  | register (table : ι) (name : String) (handler : Handler)
  /-- Hands in the registration that the call of this number returned, counting the calls of
  `register` from zero. -/
  | unregister (table : ι) (n : Nat)

/-- The names that were registered, in the order of the calls. -/
def registeredNames {ι : Type} (history : List (RegistryCall ι)) : List String :=
  history.filterMap fun
    | .register _ name _ => some name
    | .unregister .. => none

/-- At the end of the history a name of a table belongs to the `n`-th call: this call registered it
with the handler, no later one did, and its registration was not handed in to the table since. -/
def Stands {ι : Type} (history : List (RegistryCall ι)) (table : ι) (name : String) (n : Nat)
    (handler : Handler) : Prop :=
  ∃ before after, history = before ++ .register table name handler :: after ∧
    n = (registeredNames before).length ∧ (∀ other, .register table name other ∉ after) ∧
    .unregister table n ∉ after

/-- Several registries that draw the numbers of their calls from one source. -/
structure Registries (ι : Type) where
  /-- The number of the next call. -/
  serial : Nat
  /-- The registries. -/
  table : ι → Registry
  /-- The registrations that were returned, in order. -/
  issued : List Registration

namespace Registries

variable {ι : Type}

/-- All of them are empty. -/
def start (serial : Nat) : Registries ι :=
  ⟨serial, fun _ => .empty, []⟩

variable [DecidableEq ι]

/-- With another registry in the place of one. -/
def put (s : Registries ι) (t : ι) (r : Registry) : Registries ι :=
  { s with table := fun u => if u = t then r else s.table u }

/-- Registers a handler under a name in one of them. -/
def register (s : Registries ι) (t : ι) (name : String) (handler : Handler) : Registries ι :=
  let (registration, r) := (s.table t).register s.serial name handler
  { s.put t r with serial := s.serial + 1, issued := s.issued ++ [registration] }

/-- Hands in the `n`-th registration to one of them and says whether that took a name away. -/
def unregister (s : Registries ι) (t : ι) (n : Nat) : Bool × Registries ι :=
  match s.issued[n]? with
  | none => (false, s)
  | some registration =>
    match (s.table t).unregister? registration with
    | none => (false, s)
    | some r => (true, s.put t r)

/-- Makes a call. -/
def call (s : Registries ι) : RegistryCall ι → Registries ι
  | .register t name handler => s.register t name handler
  | .unregister t n => (s.unregister t n).2

/-- Makes the calls of a history, in order. -/
def run (s : Registries ι) (history : List (RegistryCall ι)) : Registries ι :=
  history.foldl call s

end Registries

/-! ## What a history says -/

section Histories

variable {ι : Type} {history : List (RegistryCall ι)} {t : ι} {name : String} {n : Nat}
  {handler : Handler}

theorem stands_concat {c : RegistryCall ι} : Stands (history ++ [c]) t name n handler ↔
    c = .register t name handler ∧ n = (registeredNames history).length ∨
      Stands history t name n handler ∧ (∀ other, c ≠ .register t name other) ∧
        c ≠ .unregister t n := by
  constructor
  · rintro ⟨before, after, heq, hn, hnew, hkept⟩
    rcases after.eq_nil_or_concat with rfl | ⟨after, d, rfl⟩
    · obtain ⟨rfl, hc⟩ := List.append_inj' heq rfl
      exact .inl ⟨(List.cons.inj hc).1, hn⟩
    · rw [List.concat_eq_append, ← List.cons_append, ← List.append_assoc] at heq
      obtain ⟨rfl, hd⟩ := List.append_inj' heq rfl
      obtain rfl := (List.cons.inj hd).1
      simp only [List.concat_eq_append, List.mem_append, List.mem_singleton, not_or] at hnew hkept
      exact .inr ⟨⟨before, after, rfl, hn, fun other => (hnew other).1, hkept.1⟩,
        fun other h => (hnew other).2 h.symm, fun h => hkept.2 h.symm⟩
  · rintro (⟨rfl, hn⟩ | ⟨⟨before, after, rfl, hn, hnew, hkept⟩, hc, hc'⟩)
    · exact ⟨history, [], rfl, hn, fun _ => List.not_mem_nil, List.not_mem_nil⟩
    · refine ⟨before, after ++ [c], by simp, hn, fun other => ?_, ?_⟩
      · simpa [hnew other] using (hc other).symm
      · simpa [hkept] using hc'.symm

theorem Stands.name_eq (h : Stands history t name n handler) :
    (registeredNames history)[n]? = some name := by
  obtain ⟨before, after, rfl, rfl, -⟩ := h
  simp [registeredNames]

end Histories

namespace Registries

variable {ι : Type} {first : Nat} {history : List (RegistryCall ι)} {s : Registries ι}

/-- After the history the numbers are those of its calls, from `first` on, and the entries are those
of the calls that stand. -/
structure Sound (first : Nat) (history : List (RegistryCall ι)) (s : Registries ι) : Prop where
  serial : s.serial = first + (registeredNames history).length
  issued : s.issued = (registeredNames history).mapIdx fun n name => ⟨name, first + n⟩
  entry : ∀ t name e, Registry.entry? (s.table t) name = some e ↔
    ∃ n, Stands history t name n e.handler ∧ e.serial = first + n
  unique : ∀ t, (s.table t).Unique

theorem sound_start (first : Nat) : Sound first ([] : List (RegistryCall ι)) (start first) where
  serial := rfl
  issued := rfl
  entry t name e := by
    refine ⟨nofun, ?_⟩
    rintro ⟨n, ⟨before, after, heq, -⟩, -⟩
    simp at heq
  unique _ := Registry.unique_empty

/-- A registration takes a name away exactly if its call stands. -/
theorem Sound.unregister?_isSome (h : Sound first history s) (t : ι) {n : Nat}
    {registration : Registration} (hn : s.issued[n]? = some registration) :
    ((s.table t).unregister? registration).isSome = true ↔
      ∃ handler, Stands history t registration.name n handler := by
  have hserial : registration.serial = first + n := by
    rw [h.issued, List.getElem?_mapIdx] at hn
    obtain ⟨name, -, rfl⟩ := Option.map_eq_some_iff.mp hn
    rfl
  rw [Option.isSome_iff_exists]
  simp only [Registry.unregister?_eq_some, h.entry, hserial]
  constructor
  · rintro ⟨-, ⟨e, ⟨m, hm, heq⟩, he⟩, -⟩
    obtain rfl : n = m := by omega
    exact ⟨e.handler, hm⟩
  · rintro ⟨handler, hstands⟩
    exact ⟨_, ⟨⟨handler, first + n⟩, ⟨n, hstands, rfl⟩, rfl⟩, rfl⟩

/-- The name that stands for a call is the one of its registration. -/
theorem Sound.issued_of_stands (h : Sound first history s) {t : ι} {name : String} {n : Nat}
    {handler : Handler} (hn : Stands history t name n handler) :
    s.issued[n]? = some ⟨name, first + n⟩ := by
  rw [h.issued, List.getElem?_mapIdx, hn.name_eq]
  rfl

variable [DecidableEq ι]

theorem Sound.register (h : Sound first history s) (t : ι) (name : String) (handler : Handler) :
    Sound first (history ++ [.register t name handler]) (s.register t name handler) := by
  have hnames : registeredNames (history ++ [.register t name handler])
      = registeredNames history ++ [name] := by simp [registeredNames]
  have htable : ∀ u, (s.register t name handler).table u
      = if u = t then ((s.table t).register s.serial name handler).2 else s.table u := fun _ => rfl
  refine ⟨?_, ?_, fun u name' e => ?_, fun u => ?_⟩
  · rw [hnames, List.length_append, ← Nat.add_assoc, ← h.serial]
    rfl
  · rw [hnames, List.mapIdx_append, ← h.issued]
    simp [Registries.register, Registry.register, h.serial]
  · have hstands : (∃ n, Stands (history ++ [.register t name handler]) u name' n e.handler ∧
        e.serial = first + n) ↔ if u = t ∧ name' = name then e = ⟨handler, s.serial⟩
          else Registry.entry? (s.table u) name' = some e := by
      simp only [stands_concat]
      split
      · rename_i hsame
        obtain ⟨rfl, rfl⟩ := hsame
        constructor
        · rintro ⟨n, ⟨hc, rfl⟩ | ⟨-, hc, -⟩, hserial⟩
          · cases hc
            rw [← h.serial] at hserial
            rw [← hserial]
          · exact absurd rfl (hc handler)
        · rintro rfl
          exact ⟨_, .inl ⟨rfl, rfl⟩, h.serial⟩
      · rename_i hother
        rw [h.entry]
        refine exists_congr fun n => and_congr_left fun _ => ⟨?_, fun hn => .inr ⟨hn, ?_, nofun⟩⟩
        · rintro (⟨hc, -⟩ | ⟨hn, -⟩)
          · cases hc
            exact absurd ⟨rfl, rfl⟩ hother
          · exact hn
        · intro other hc
          cases hc
          exact hother ⟨rfl, rfl⟩
    rw [hstands, htable]
    by_cases hu : u = t
    · subst hu
      rw [if_pos rfl, Registry.lookup_register]
      by_cases hname : name' = name
      · simp [hname, eq_comm]
      · simp [hname]
    · simp [hu]
  · rw [htable]
    split
    · exact (h.unique t).register _ _ _
    · exact h.unique u

/-- What comes of handing in a registration: the entry of its call goes, if that stands, and nothing
else. -/
theorem Sound.unregister_cases (h : Sound first history s) (t : ι) (n : Nat) :
    (∃ name handler, Stands history t name n handler ∧
        s.unregister t n = (true, s.put t ((s.table t).erase name))) ∨
      (∀ name handler, ¬ Stands history t name n handler) ∧ s.unregister t n = (false, s) := by
  cases hn : s.issued[n]? with
  | none =>
    refine .inr ⟨fun name handler hstands => ?_, by simp [Registries.unregister, hn]⟩
    rw [h.issued_of_stands hstands] at hn
    cases hn
  | some registration =>
    have hiff := h.unregister?_isSome t hn
    cases hr : (s.table t).unregister? registration with
    | none =>
      refine .inr ⟨fun name handler hstands => ?_, by simp [Registries.unregister, hn, hr]⟩
      rw [h.issued_of_stands hstands] at hn
      cases hn
      rw [hr] at hiff
      cases hiff.mpr ⟨handler, hstands⟩
    | some r =>
      obtain ⟨handler, hstands⟩ := hiff.mp (by rw [hr]; rfl)
      obtain ⟨-, rfl⟩ := Registry.unregister?_eq_some.mp hr
      exact .inl ⟨registration.name, handler, hstands, by simp [Registries.unregister, hn, hr]⟩

theorem Sound.unregister (h : Sound first history s) (t : ι) (n : Nat) :
    Sound first (history ++ [.unregister t n]) (s.unregister t n).2 := by
  have hnames : registeredNames (history ++ [.unregister t n]) = registeredNames history := by
    simp [registeredNames]
  have hstands : ∀ u name m handler, Stands (history ++ [.unregister t n]) u name m handler ↔
      Stands history u name m handler ∧ ¬ (u = t ∧ m = n) := by
    intro u name m handler
    rw [stands_concat]
    constructor
    · rintro (⟨⟨⟩, -⟩ | ⟨hm, -, hc⟩)
      refine ⟨hm, ?_⟩
      rintro ⟨rfl, rfl⟩
      exact hc rfl
    · rintro ⟨hm, hother⟩
      refine .inr ⟨hm, nofun, fun hc => hother ?_⟩
      cases hc
      exact ⟨rfl, rfl⟩
  rcases h.unregister_cases t n with ⟨name, handler, hname, heq⟩ | ⟨hnone, heq⟩
  · rw [heq]
    have htable : ∀ u, (s.put t ((s.table t).erase name)).table u
        = if u = t then (s.table t).erase name else s.table u := fun _ => rfl
    refine ⟨by rw [hnames]; exact h.serial, by rw [hnames]; exact h.issued, fun u name' e => ?_,
      fun u => ?_⟩
    · simp only [hstands, htable]
      by_cases hu : u = t
      · subst hu
        rw [if_pos rfl, Registry.lookup_erase]
        by_cases hname' : name' = name
        · -- only the call whose registration was handed in stood for this name
          rw [if_pos hname']
          refine ⟨nofun, ?_⟩
          rintro ⟨m, ⟨hm, hother⟩, -⟩
          have hentry := (h.entry u name ⟨handler, first + n⟩).mpr ⟨n, hname, rfl⟩
          have hentry' := (h.entry u name ⟨e.handler, first + m⟩).mpr ⟨m, hname' ▸ hm, rfl⟩
          rw [hentry] at hentry'
          have hserial := congrArg RegistryEntry.serial (Option.some.inj hentry')
          simp only [Nat.add_left_cancel_iff] at hserial
          exact absurd ⟨rfl, hserial.symm⟩ hother
        · rw [if_neg hname', h.entry]
          refine exists_congr fun m => and_congr_left fun _ => ⟨fun hm => ⟨hm, ?_⟩, And.left⟩
          rintro ⟨-, rfl⟩
          have hissued := h.issued_of_stands hm
          rw [h.issued_of_stands hname] at hissued
          exact hname' (congrArg Registration.name (Option.some.inj hissued)).symm
      · simp [hu, h.entry]
    · rw [htable]
      split
      · exact (h.unique t).erase name
      · exact h.unique u
  · rw [heq]
    refine ⟨by rw [hnames]; exact h.serial, by rw [hnames]; exact h.issued, fun u name' e => ?_,
      h.unique⟩
    simp only [hstands, h.entry]
    refine exists_congr fun m => and_congr_left fun _ => ⟨fun hm => ⟨hm, ?_⟩, And.left⟩
    rintro ⟨rfl, rfl⟩
    exact hnone name' e.handler hm

theorem sound_run (first : Nat) (history : List (RegistryCall ι)) :
    Sound first history ((start first).run history) := by
  have hrun : ∀ (rest done : List (RegistryCall ι)) (s : Registries ι), Sound first done s →
      Sound first (done ++ rest) (s.run rest) := by
    intro rest
    induction rest with
    | nil =>
      intro done s h
      rwa [List.append_nil]
    | cons c rest ih =>
      intro done s h
      have hcall : Sound first (done ++ [c]) (s.call c) := by
        cases c with
        | register t name handler => exact h.register t name handler
        | unregister t n => exact h.unregister t n
      rw [List.append_cons]
      exact ih _ _ hcall
  exact hrun history [] _ (sound_start first)

end Registries

/-- Registrations are capabilities. After any calls to any registries, which also hand in
registrations that were handed in before or belong to another registry:

* a registration takes a name away exactly if the call that returned it stands for that name; then
  it takes away this entry and nothing else, and otherwise nothing changes;
* the handler of a name is the one of the call that stands for it;
* the names of a registry are sorted, without repetition, and those that have a handler. -/
theorem registrations_are_capabilities {ι : Type} [DecidableEq ι] (first : Nat)
    (history : List (RegistryCall ι)) :
    let s := (Registries.start first).run history
    (∀ t n, ((s.unregister t n).1 = true ↔ ∃ name handler, Stands history t name n handler) ∧
      (∀ name handler, Stands history t name n handler → ∀ u name',
        Registry.entry? ((s.unregister t n).2.table u) name'
          = if u = t ∧ name' = name then none else Registry.entry? (s.table u) name') ∧
      ((s.unregister t n).1 = false → (s.unregister t n).2 = s)) ∧
    (∀ t name handler, (s.table t).get? name = some handler ↔
      ∃ n, Stands history t name n handler) ∧
    ∀ t, (s.table t).names.Pairwise (· < ·) ∧
      ∀ name, name ∈ (s.table t).names ↔ ((s.table t).get? name).isSome = true := by
  intro s
  have hs : s.Sound first history := Registries.sound_run first history
  refine ⟨fun t n => ?_, fun t name handler => ?_, fun t =>
    ⟨(hs.unique t).sorted_names, Registry.mem_names_iff (s.table t)⟩⟩
  · rcases hs.unregister_cases t n with ⟨name, handler, hname, heq⟩ | ⟨hnone, heq⟩
    · rw [heq]
      refine ⟨iff_of_true rfl ⟨name, handler, hname⟩, fun name' handler' hname' u name'' => ?_,
        nofun⟩
      have hissued := hs.issued_of_stands hname
      rw [hs.issued_of_stands hname'] at hissued
      obtain rfl : name' = name := congrArg Registration.name (Option.some.inj hissued)
      show Registry.entry? (if u = t then _ else _) name'' = _
      by_cases hu : u = t
      · subst hu
        simp [Registry.lookup_erase]
      · simp [hu]
    · rw [heq]
      refine ⟨iff_of_false nofun ?_, fun name handler hname => absurd hname (hnone name handler),
        fun _ => rfl⟩
      rintro ⟨name, handler, hname⟩
      exact hnone name handler hname
  · rw [Registry.get?, Option.map_eq_some_iff]
    constructor
    · rintro ⟨e, he, rfl⟩
      obtain ⟨n, hn, -⟩ := (hs.entry t name e).mp he
      exact ⟨n, hn⟩
    · rintro ⟨n, hn⟩
      exact ⟨⟨handler, first + n⟩, (hs.entry t name _).mpr ⟨n, hn, rfl⟩, rfl⟩

/-- A replaced registration and one of another registry are worth nothing. -/
example (handler : Handler) :
    let s := (Registries.start 1).run
      [.register true "tool" handler, .register true "tool" handler, .register false "tool" handler]
    (s.unregister true 0).1 = false ∧ (s.unregister true 2).1 = false ∧
      (s.unregister true 1).1 = true :=
  ⟨rfl, rfl, rfl⟩

end Runnel
