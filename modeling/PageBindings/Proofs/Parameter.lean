import PageBindings.Parameter
import PageBindings.Proofs.Json.RoundTrip

/-!
# What parameters stand for

Resolving parameters is a substitution.  A list with a marker in front stands for something else (`Marker.ofItems?`):
for a value as it is, or for what a resolver gives.  `Json.references` lists the references of a value that are asked
for, in the order in which they are met, and `Json.substituted` is the value with what they give in their places.
Neither looks into literals, into the arguments of a resolver, or into what it gives.

Main statement: the values that parameters stand for are the substituted ones if each reference gives something, and
otherwise there is the error of the first one that does not (`resolve_substitutes`).
-/

namespace PageBindings

/-- What a list with a marker in front stands for. -/
inductive Marker where
  /-- The value as it is. -/
  | literal (value : Json)
  /-- What a resolver reads from the page. -/
  | reference (parameter : DynamicParameter)

/-- What a list stands for, if it has a marker in front. -/
def Marker.ofItems? : List Json → Option Marker
  | [.string "lit", value] => some (.literal value)
  | .string "dynamic" :: .string resolver :: arguments => some (.reference ⟨resolver, arguments⟩)
  | _ => none

/-- A list has a marker if it is a literal of one value or a reference with a name, and no other list has one. -/
theorem Marker.ofItems?_cases (items : List Json) :
    (∃ value, items = [.string "lit", value] ∧ ofItems? items = some (.literal value)) ∨
    (∃ resolver arguments, items = .string "dynamic" :: .string resolver :: arguments ∧
      ofItems? items = some (.reference ⟨resolver, arguments⟩)) ∨
    ((∀ value, items ≠ [.string "lit", value]) ∧
      (∀ resolver arguments, items ≠ .string "dynamic" :: .string resolver :: arguments) ∧
        ofItems? items = none) := by
  unfold ofItems?
  split
  · rename_i value
    exact .inl ⟨value, rfl, rfl⟩
  · rename_i resolver arguments
    exact .inr (.inl ⟨resolver, arguments, rfl, rfl⟩)
  · rename_i hliteral hreference
    exact .inr (.inr ⟨hliteral, hreference, rfl⟩)

namespace Json

mutual

/-- The value with what the references give in their places. -/
def substituted (read : DynamicParameter → Json) : Json → Json
  | .array items =>
    match Marker.ofItems? items with
    | some (.literal value) => value
    | some (.reference parameter) => read parameter
    | none => .array (substitutedItems read items)
  | .object members => .object (substitutedMembers read members)
  | value => value

/-- Every item with what the references give. -/
def substitutedItems (read : DynamicParameter → Json) : List Json → List Json
  | [] => []
  | item :: rest => substituted read item :: substitutedItems read rest

/-- Every member with what the references give, under the name that it has. -/
def substitutedMembers (read : DynamicParameter → Json) : List (String × Json) → List (String × Json)
  | [] => []
  | (name, value) :: rest => (name, substituted read value) :: substitutedMembers read rest

end

mutual

/-- The references of a value, in order: items from left to right, members by name. -/
def references : Json → List DynamicParameter
  | .array items =>
    match Marker.ofItems? items with
    | some (.literal _) => []
    | some (.reference parameter) => [parameter]
    | none => referencesOfItems items
  | .object members => referencesOfMembers members
  | _ => []

/-- The references of items. -/
def referencesOfItems : List Json → List DynamicParameter
  | [] => []
  | item :: rest => references item ++ referencesOfItems rest

/-- The references of members. -/
def referencesOfMembers : List (String × Json) → List DynamicParameter
  | [] => []
  | (_, value) :: rest => references value ++ referencesOfMembers rest

end

mutual

/-- No list in the value has a marker in front. -/
def Unmarked : Json → Prop
  | .array items => Marker.ofItems? items = none ∧ UnmarkedItems items
  | .object members => UnmarkedMembers members
  | _ => True

/-- No list in the items has a marker in front. -/
def UnmarkedItems : List Json → Prop
  | [] => True
  | item :: rest => Unmarked item ∧ UnmarkedItems rest

/-- No list in the members has a marker in front. -/
def UnmarkedMembers : List (String × Json) → Prop
  | [] => True
  | (_, value) :: rest => Unmarked value ∧ UnmarkedMembers rest

end

variable {items : List Json} {members : List (String × Json)} {read : DynamicParameter → Json}

theorem substitutedItems_eq : substitutedItems read items = items.map (substituted read) := by
  induction items with
  | nil => rfl
  | cons item rest ih => rw [substitutedItems, ih, List.map_cons]

theorem substitutedMembers_eq :
    substitutedMembers read members = members.map fun m => (m.1, substituted read m.2) := by
  induction members with
  | nil => rfl
  | cons m rest ih => rw [substitutedMembers, ih, List.map_cons]

theorem referencesOfItems_eq : referencesOfItems items = items.flatMap references := by
  induction items with
  | nil => rfl
  | cons item rest ih => rw [referencesOfItems, ih, List.flatMap_cons]

theorem referencesOfMembers_eq : referencesOfMembers members = members.flatMap fun m => references m.2 := by
  induction members with
  | nil => rfl
  | cons m rest ih => rw [referencesOfMembers, ih, List.flatMap_cons]

theorem unmarkedItems_iff : UnmarkedItems items ↔ ∀ item ∈ items, item.Unmarked := by
  induction items with
  | nil => simp [UnmarkedItems]
  | cons item rest ih => simp [UnmarkedItems, ih]

theorem unmarkedMembers_iff : UnmarkedMembers members ↔ ∀ m ∈ members, m.2.Unmarked := by
  induction members with
  | nil => simp [UnmarkedMembers]
  | cons m rest ih => simp [UnmarkedMembers, ih]

/-- What holds of a value if it holds of its members holds of every value. -/
@[elab_as_elim]
theorem induction {motive : Json → Prop} (null : motive .null) (bool : ∀ b, motive (.bool b))
    (number : ∀ n, motive (.number n)) (string : ∀ s, motive (.string s))
    (array : ∀ items, (∀ item ∈ items, motive item) → motive (.array items))
    (object : ∀ members, (∀ m ∈ members, motive m.2) → motive (.object members)) (v : Json) : motive v :=
  @Json.rec motive (fun items => ∀ item ∈ items, motive item) (fun members => ∀ m ∈ members, motive m.2)
    (fun m => motive m.2) null bool number string array object (fun _ h => absurd h List.not_mem_nil)
    (fun _ _ hfirst hrest => List.forall_mem_cons.2 ⟨hfirst, hrest⟩) (fun _ h => absurd h List.not_mem_nil)
    (fun _ _ hfirst hrest => List.forall_mem_cons.2 ⟨hfirst, hrest⟩) (fun _ _ h => h) v

/-- A value without markers has no references. -/
theorem Unmarked.references {v : Json} (h : v.Unmarked) : v.references = [] := by
  induction v using Json.induction with
  | array items ih =>
    rw [Unmarked, unmarkedItems_iff] at h
    simp only [Json.references, h.1, referencesOfItems_eq, List.flatMap_eq_nil_iff]
    exact fun item hitem => ih item hitem (h.2 item hitem)
  | object members ih =>
    rw [Unmarked, unmarkedMembers_iff] at h
    simp only [Json.references, referencesOfMembers_eq, List.flatMap_eq_nil_iff]
    exact fun m hm => ih m hm (h m hm)
  | _ => simp [Json.references]

/-- In a value without markers there is nothing to substitute. -/
theorem Unmarked.substituted {v : Json} (h : v.Unmarked) : v.substituted read = v := by
  induction v using Json.induction with
  | array items ih =>
    rw [Unmarked, unmarkedItems_iff] at h
    have hitems : items.map (Json.substituted read) = items.map id :=
      List.map_congr_left fun item hitem => ih item hitem (h.2 item hitem)
    simp [Json.substituted, h.1, substitutedItems_eq, hitems]
  | object members ih =>
    rw [Unmarked, unmarkedMembers_iff] at h
    have hmembers : members.map (fun m => (m.1, Json.substituted read m.2)) = members.map id := by
      refine List.map_congr_left fun m hm => ?_
      rw [ih m hm (h m hm)]
      rfl
    simp [Json.substituted, substitutedMembers_eq, hmembers]
  | _ => simp [Json.substituted]

end Json

/-! ### Filling in references -/

variable {α β γ : Type} {answer : DynamicParameter → Except LookupError Json} {rs rs' : List DynamicParameter}

/-- The result is the value with the answers filled in, or the error of the first reference that has none. -/
structure FillsIn (answer : DynamicParameter → Except LookupError Json) (rs : List DynamicParameter)
    (value : (DynamicParameter → Json) → α) (result : Except LookupError α) : Prop where
  answered {read : DynamicParameter → Json} (h : ∀ r ∈ rs, answer r = .ok (read r)) : result = .ok (value read)
  failed {before after : List DynamicParameter} {r : DynamicParameter} {cause : LookupError}
    (split : rs = before ++ r :: after) (h : ∀ earlier ∈ before, ∃ v, answer earlier = .ok v)
    (hr : answer r = .error cause) : result = .error cause

/-- Answers that are there can be read off. -/
private theorem exists_read (h : ∀ r ∈ rs, ∃ v, answer r = .ok v) :
    ∃ read : DynamicParameter → Json, ∀ r ∈ rs, answer r = .ok (read r) := by
  refine ⟨fun r => (answer r).toOption.getD .null, fun r hr => ?_⟩
  obtain ⟨v, hv⟩ := h r hr
  simp [hv, Except.toOption]

/-- Either all references have answers, or there is a first one that has none. -/
private theorem answered_or_failed (answer : DynamicParameter → Except LookupError Json)
    (rs : List DynamicParameter) :
    (∀ r ∈ rs, ∃ v, answer r = .ok v) ∨ ∃ before r after cause, rs = before ++ r :: after ∧
      (∀ earlier ∈ before, ∃ v, answer earlier = .ok v) ∧ answer r = .error cause := by
  induction rs with
  | nil => exact .inl fun r hr => absurd hr List.not_mem_nil
  | cons r rest ih =>
    cases hr : answer r with
    | error cause => exact .inr ⟨[], r, rest, cause, rfl, by simp, hr⟩
    | ok v =>
      rcases ih with h | ⟨before, r', after, cause, rfl, h, hr'⟩
      · exact .inl (List.forall_mem_cons.2 ⟨⟨v, hr⟩, h⟩)
      · exact .inr ⟨r :: before, r', after, cause, rfl, List.forall_mem_cons.2 ⟨⟨v, hr⟩, h⟩, hr'⟩

namespace FillsIn

variable {value : (DynamicParameter → Json) → α} {result : Except LookupError α}

theorem pure (answer : DynamicParameter → Except LookupError Json) (a : α) :
    FillsIn answer [] (fun _ => a) (.ok a) where
  answered _ := rfl
  failed split := by simp at split

theorem single (answer : DynamicParameter → Except LookupError Json) (r : DynamicParameter) :
    FillsIn answer [r] (fun read => read r) (answer r) where
  answered h := h r (List.mem_singleton_self r)
  failed {before after r' cause} split _ hr := by
    cases before with
    | nil =>
      obtain ⟨rfl, -⟩ := List.cons.inj split
      exact hr
    | cons first more => simp at split

/-- One after the other: the references of the first come first. -/
theorem bind {f : α → Except LookupError β} {value' : α → (DynamicParameter → Json) → β}
    (hx : FillsIn answer rs value result) (hf : ∀ a, FillsIn answer rs' (value' a) (f a)) :
    FillsIn answer (rs ++ rs') (fun read => value' (value read) read) (result >>= f) where
  answered {read} h := by
    have hfirst : result = .ok (value read) := hx.answered fun r hr => h r (List.mem_append_left _ hr)
    have hrest := (hf (value read)).answered fun r hr => h r (List.mem_append_right _ hr)
    rw [hfirst]
    exact hrest
  failed {before after r cause} split h hr := by
    -- the first failure is in the second part, or in the first
    have hcases : (∃ more, before = rs ++ more ∧ rs' = more ++ r :: after) ∨ ∃ more, rs = before ++ r :: more := by
      rcases List.append_eq_append_iff.1 split with ⟨more, hbefore, hmore⟩ | ⟨more, hrs, hmore⟩
      · exact .inl ⟨more, hbefore, hmore⟩
      · cases more with
        | nil => exact .inl ⟨[], by simpa using hrs.symm, by simpa using hmore.symm⟩
        | cons first more =>
          obtain ⟨rfl, -⟩ := List.cons.inj hmore
          exact .inr ⟨more, hrs⟩
    rcases hcases with ⟨more, rfl, hrs'⟩ | ⟨more, hrs⟩
    · obtain ⟨read, hread⟩ := exists_read fun r hr => h r (List.mem_append_left _ hr)
      have hfirst := hx.answered hread
      rw [hfirst]
      exact (hf (value read)).failed hrs' (fun r hr => h r (List.mem_append_right _ hr)) hr
    · have hfirst := hx.failed hrs h hr
      rw [hfirst]
      rfl

theorem map (h : FillsIn answer rs value result) (f : α → β) :
    FillsIn answer rs (fun read => f (value read)) (result >>= fun a => .ok (f a)) := by
  have hbind := h.bind fun a => FillsIn.pure answer (f a)
  rwa [List.append_nil] at hbind

theorem mapM {xs : List β} {f : β → Except LookupError γ} {refs : β → List DynamicParameter}
    {value : β → (DynamicParameter → Json) → γ} (h : ∀ x ∈ xs, FillsIn answer (refs x) (value x) (f x)) :
    FillsIn answer (xs.flatMap refs) (fun read => xs.map fun x => value x read) (xs.mapM f) := by
  induction xs with
  | nil => exact FillsIn.pure answer []
  | cons x rest ih =>
    rw [List.forall_mem_cons] at h
    rw [List.flatMap_cons, List.mapM_cons]
    exact h.1.bind fun y => (ih h.2).map (y :: ·)

theorem eq_ok_iff (h : FillsIn answer rs value result) {a : α} :
    result = .ok a ↔ ∃ read, (∀ r ∈ rs, answer r = .ok (read r)) ∧ a = value read := by
  constructor
  · intro ha
    rcases answered_or_failed answer rs with hall | ⟨before, r, after, cause, split, hbefore, hr⟩
    · obtain ⟨read, hread⟩ := exists_read hall
      have hresult := h.answered hread
      exact ⟨read, hread, Except.ok.inj (ha.symm.trans hresult)⟩
    · have hresult := h.failed split hbefore hr
      rw [ha] at hresult
      simp at hresult
  · rintro ⟨read, hread, rfl⟩
    exact h.answered hread

theorem eq_error_iff (h : FillsIn answer rs value result) {cause : LookupError} :
    result = .error cause ↔ ∃ before r after, rs = before ++ r :: after ∧
      (∀ earlier ∈ before, ∃ v, answer earlier = .ok v) ∧ answer r = .error cause := by
  constructor
  · intro hc
    rcases answered_or_failed answer rs with hall | ⟨before, r, after, found, split, hbefore, hr⟩
    · obtain ⟨read, hread⟩ := exists_read hall
      have hresult := h.answered hread
      rw [hc] at hresult
      simp at hresult
    · have hresult := h.failed split hbefore hr
      obtain rfl := Except.error.inj (hc.symm.trans hresult)
      exact ⟨before, r, after, split, hbefore, hr⟩
  · rintro ⟨before, r, after, split, hbefore, hr⟩
    exact h.failed split hbefore hr

/-- The references and the value say what the result is. -/
theorem unique {other : Except LookupError α} (h : FillsIn answer rs value result)
    (h' : FillsIn answer rs value other) : result = other := by
  rcases answered_or_failed answer rs with hall | ⟨before, r, after, cause, split, hbefore, hr⟩
  · obtain ⟨read, hread⟩ := exists_read hall
    rw [h.answered hread, h'.answered hread]
  · rw [h.failed split hbefore hr, h'.failed split hbefore hr]

end FillsIn

/-! ### Resolving -/

namespace Resolvers

variable {π : Type} (resolvers : Resolvers π) (page : π)

/-- What a reference gives on a page. -/
def ask (r : DynamicParameter) : Except LookupError Json :=
  match resolvers.find? r.resolver with
  | none => .error (.unknownResolver r.resolver)
  | some resolver => resolver page r.arguments

/-- What is no literal is asked for, or gone into. -/
private theorem visit_of_not_literal {v : Json} (h : ∀ value, v ≠ .array [.string "lit", value]) :
    resolvers.visit page v = match DynamicParameter.ofJson? v with
      | none => .ok (.enter v)
      | some r => (resolvers.ask page r).map .keep := by
  unfold visit
  split
  · rename_i value
    exact absurd rfl (h value)
  · cases DynamicParameter.ofJson? v with
    | none => rfl
    | some r =>
      unfold ask
      cases hfind : resolvers.find? r.resolver with
      | none => simp only [hfind]; rfl
      | some resolver => simp only [hfind]

theorem visit_array (items : List Json) : resolvers.visit page (.array items) =
    match Marker.ofItems? items with
    | some (.literal value) => .ok (.keep value)
    | some (.reference r) => (resolvers.ask page r).map .keep
    | none => .ok (.enter (.array items)) := by
  rcases Marker.ofItems?_cases items with ⟨value, rfl, hmarker⟩ | ⟨resolver, arguments, rfl, hmarker⟩ |
    ⟨hliteral, hreference, hmarker⟩
  · rw [hmarker]
    rfl
  · have hne : ∀ value, Json.array (.string "dynamic" :: .string resolver :: arguments) ≠
        .array [.string "lit", value] := by simp
    have hparameter : DynamicParameter.ofJson? (.array (.string "dynamic" :: .string resolver :: arguments)) =
        some ⟨resolver, arguments⟩ := rfl
    rw [hmarker, visit_of_not_literal resolvers page hne, hparameter]
  · have hne : ∀ value, Json.array items ≠ .array [.string "lit", value] :=
      fun value heq => hliteral value (Json.array.inj heq)
    have hparameter : DynamicParameter.ofJson? (.array items) = none := by
      unfold DynamicParameter.ofJson?
      split
      · rename_i marker resolver arguments heq
        split
        · rename_i hdynamic
          exact absurd (hdynamic ▸ Json.array.inj heq) (hreference resolver arguments)
        · rfl
      · rfl
    rw [hmarker, visit_of_not_literal resolvers page hne, hparameter]

/-- What a resolver gives is kept as it is. -/
private theorem bind_keep {given : Except LookupError Json} {next : Json.Visit → Except LookupError Json}
    (h : ∀ value, next (.keep value) = .ok value) : (given.map Json.Visit.keep >>= next) = given := by
  cases given with
  | error cause => rfl
  | ok value => exact h value

/-- Enough levels for the value fill in all of its references. -/
theorem fillsIn_rebuild {levels : Nat} {v : Json} (h : v.depth < levels) :
    FillsIn (resolvers.ask page) v.references (fun read => v.substituted read)
      (Json.rebuild (resolvers.visit page) levels v) := by
  induction levels generalizing v with
  | zero => omega
  | succ levels ih =>
    rw [Json.rebuild]
    cases v with
    | array items =>
      have hitems : ∀ item ∈ items, FillsIn (resolvers.ask page) item.references (fun read => item.substituted read)
          (Json.rebuild (resolvers.visit page) levels item) := by
        intro item hitem
        rw [Json.depth] at h
        have hdepth : item.depth ≤ levels - 1 := Json.depthItems_le_iff.1 (by omega) item hitem
        exact ih (by omega)
      rw [visit_array]
      unfold Json.references Json.substituted
      cases hmarker : Marker.ofItems? items with
      | none =>
        simp only [Json.referencesOfItems_eq, Json.substitutedItems_eq]
        exact (FillsIn.mapM hitems).map Json.array
      | some marker =>
        cases marker with
        | literal value => exact FillsIn.pure _ value
        | reference r =>
          show FillsIn _ [r] _ ((resolvers.ask page r).map Json.Visit.keep >>= _)
          rw [bind_keep fun value => rfl]
          exact FillsIn.single _ r
    | object members =>
      have hmembers : ∀ m ∈ members, FillsIn (resolvers.ask page) m.2.references
          (fun read => (m.1, m.2.substituted read))
          (Json.rebuild (resolvers.visit page) levels m.2 >>= fun value => .ok (m.1, value)) := by
        intro m hm
        rw [Json.depth] at h
        have hdepth : m.2.depth ≤ levels - 1 := Json.depthMembers_le_iff.1 (by omega) m hm
        exact (ih (by omega)).map (m.1, ·)
      unfold Json.references Json.substituted
      simp only [Json.referencesOfMembers_eq, Json.substitutedMembers_eq]
      exact (FillsIn.mapM hmembers).map Json.object
    | null => exact FillsIn.pure _ _
    | bool b => exact FillsIn.pure _ _
    | number n => exact FillsIn.pure _ _
    | string s => exact FillsIn.pure _ _

/-- The references of all parameters are filled in, one parameter after the other. -/
theorem fillsIn_resolve (parameters : List Json) :
    FillsIn (resolvers.ask page) (parameters.flatMap Json.references)
      (fun read => parameters.map fun parameter => parameter.substituted read) (resolvers.resolve page parameters) :=
  FillsIn.mapM fun parameter _ => fillsIn_rebuild resolvers page (Nat.lt_succ_self parameter.depth)

/--
Resolving parameters is a substitution: the parameters stand for the values with what their references give, or for
the first error in the order of the references.  So parameters without markers stand for themselves, and a list that
only looks like one with a marker is a list of what its items stand for.  The bound on the levels is none: any number
of levels beyond those of the parameter gives the same.
-/
theorem resolve_substitutes (parameters : List Json) :
    (∀ values, resolvers.resolve page parameters = .ok values ↔ ∃ read : DynamicParameter → Json,
      (∀ r ∈ parameters.flatMap Json.references, resolvers.ask page r = .ok (read r)) ∧
        values = parameters.map fun parameter => parameter.substituted read) ∧
    (∀ cause, resolvers.resolve page parameters = .error cause ↔ ∃ before r after,
      parameters.flatMap Json.references = before ++ r :: after ∧
        (∀ earlier ∈ before, ∃ value, resolvers.ask page earlier = .ok value) ∧
        resolvers.ask page r = .error cause) ∧
    ((∀ parameter ∈ parameters, parameter.Unmarked) → resolvers.resolve page parameters = .ok parameters) ∧
    (∀ items : List Json, (∀ value, items ≠ [.string "lit", value]) →
      (∀ name arguments, items ≠ .string "dynamic" :: .string name :: arguments) →
      resolvers.resolveOne page (.array items) = (resolvers.resolve page items).map .array) ∧
    ∀ parameter ∈ parameters, ∀ levels > parameter.depth,
      Json.rebuild (resolvers.visit page) levels parameter = resolvers.resolveOne page parameter := by
  have hfills := fillsIn_resolve resolvers page parameters
  refine ⟨fun values => hfills.eq_ok_iff, fun cause => hfills.eq_error_iff, ?_, ?_, ?_⟩
  · intro hunmarked
    have hreferences : parameters.flatMap Json.references = [] := by
      simp only [List.flatMap_eq_nil_iff]
      exact fun parameter hmem => (hunmarked parameter hmem).references
    have hvalues : parameters.map (fun parameter => parameter.substituted fun _ => .null) = parameters.map id :=
      List.map_congr_left fun parameter hmem => (hunmarked parameter hmem).substituted
    have hnone : ∀ r ∈ parameters.flatMap Json.references, resolvers.ask page r = .ok .null := by
      simp [hreferences]
    rw [hfills.answered hnone, hvalues, List.map_id]
  · intro items hliteral hreference
    have hmarker : Marker.ofItems? items = none := by
      rcases Marker.ofItems?_cases items with ⟨value, heq, -⟩ | ⟨name, arguments, heq, -⟩ | ⟨-, -, hmarker⟩
      · exact absurd heq (hliteral value)
      · exact absurd heq (hreference name arguments)
      · exact hmarker
    have hone := fillsIn_rebuild resolvers page (Nat.lt_succ_self (Json.array items).depth)
    unfold Json.references Json.substituted at hone
    simp only [hmarker, Json.referencesOfItems_eq, Json.substitutedItems_eq] at hone
    have hall := (fillsIn_resolve resolvers page items).map Json.array
    have hmap : (resolvers.resolve page items >>= fun values => .ok (Json.array values)) =
        (resolvers.resolve page items).map Json.array := by
      cases resolvers.resolve page items <;> rfl
    rw [← hmap]
    exact hone.unique hall
  · intro parameter _ levels hlevels
    exact (fillsIn_rebuild resolvers page hlevels).unique
      (fillsIn_rebuild resolvers page (Nat.lt_succ_self parameter.depth))

/-- Arguments that look like a reference, in what looks like a literal, are given back as they are. -/
example : (Resolvers.empty.insert "echo" fun _ arguments => .ok (.array arguments)).resolve ()
    [.array [.string "dynamic", .string "echo", .string "lit", .array [.string "dynamic", .string "gone"]]] =
      .ok [.array [.string "lit", .array [.string "dynamic", .string "gone"]]] := by
  rfl

end Resolvers

end PageBindings
