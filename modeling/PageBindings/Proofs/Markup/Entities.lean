import PageBindings.Markup.Token

/-!
# Entities

A text written with entities (`escaped`) is decoded to itself (`decodeEntities_escaped`), also where it looks like an
entity.  Decoding goes through a text once; it comes to the same to replace all entities of one character after those
of another, if the ampersands come last (`decodeEntities_eq_replaceEach`).
-/

namespace PageBindings.Markup

/-- How a character is written in texts and values. -/
def entity (c : Char) : List Char :=
  match c with
  | '&' => ['&', 'a', 'm', 'p', ';']
  | '<' => ['&', 'l', 't', ';']
  | '>' => ['&', 'g', 't', ';']
  | '"' => ['&', 'q', 'u', 'o', 't', ';']
  | '\'' => ['&', '#', '3', '9', ';']
  | c => [c]

/-- A text or value with entities. -/
def escaped (text : String) : List Char :=
  text.toList.flatMap entity

variable {c x : Char} {cs name rest w : List Char}

theorem decodeEntities_cons (h : c ≠ '&') (cs : List Char) : decodeEntities (c :: cs) = c :: decodeEntities cs := by
  rw [decodeEntities]
  all_goals
    intro _ hc
    exact absurd hc h

private theorem decodeEntities_entity_append (c : Char) (cs : List Char) :
    decodeEntities (entity c ++ cs) = c :: decodeEntities cs := by
  unfold entity
  split
  · rfl
  · rfl
  · rfl
  · rfl
  · rfl
  · rename_i hamp _ _ _ _
    exact decodeEntities_cons hamp cs

/-- Decoding undoes the entities. -/
theorem decodeEntities_escaped (text : String) : String.ofList (decodeEntities (escaped text)) = text := by
  have hchars : ∀ cs : List Char, decodeEntities (cs.flatMap entity) = cs := by
    intro cs
    induction cs with
    | nil => rfl
    | cons c rest ih => rw [List.flatMap_cons, decodeEntities_entity_append, ih]
  unfold escaped
  rw [hchars, String.ofList_toList]

theorem ne_of_mem_escaped (text : String) : ∀ c ∈ escaped text, c ≠ '<' ∧ c ≠ '"' := by
  intro c h
  obtain ⟨x, -, hc⟩ := List.mem_flatMap.1 h
  unfold entity at hc
  split at hc
  all_goals simp at hc
  all_goals grind

/-! ### One entity after the other -/

/-- The text with `c` in the place of every `&name`, from left to right. -/
def replaceAll (name : List Char) (c : Char) : List Char → List Char
  | [] => []
  | x :: rest =>
    if x = '&' ∧ name <+: rest then c :: replaceAll name c (rest.drop name.length) else x :: replaceAll name c rest
termination_by cs => cs.length
decreasing_by
  · rw [List.length_drop, List.length_cons]
    omega
  · exact Nat.lt_succ_self _

/-- The replacements of a list of names, one after the other. -/
def replaceEach (table : List (List Char × Char)) (cs : List Char) : List Char :=
  table.foldl (fun cs entry => replaceAll entry.1 entry.2 cs) cs

/-- The names of entities with the characters for which they stand, ampersands last. -/
def entityTable : List (List Char × Char) :=
  [(['q', 'u', 'o', 't', ';'], '"'), (['#', '3', '9', ';'], '\''), (['l', 't', ';'], '<'), (['g', 't', ';'], '>'),
    (['a', 'm', 'p', ';'], '&')]

theorem replaceAll_hit (name : List Char) (c : Char) (rest : List Char) :
    replaceAll name c ('&' :: (name ++ rest)) = c :: replaceAll name c rest := by
  rw [replaceAll, if_pos ⟨rfl, List.prefix_append name rest⟩, List.drop_left]

theorem replaceAll_miss (h : ¬ (x = '&' ∧ name <+: rest)) :
    replaceAll name c (x :: rest) = x :: replaceAll name c rest := by
  rw [replaceAll, if_neg h]

theorem replaceAll_append (name : List Char) (c : Char) (hw : '&' ∉ w) (rest : List Char) :
    replaceAll name c (w ++ rest) = w ++ replaceAll name c rest := by
  induction w with
  | nil => rfl
  | cons x w ih =>
    rw [List.mem_cons, not_or] at hw
    rw [List.cons_append, replaceAll_miss fun h => hw.1 h.1.symm, ih hw.2, List.cons_append]

/-- What is put in, and what is replaced, does not make the beginning of another entity. -/
theorem not_prefix_replaceAll (name : List Char) (hw : '&' ∉ w) (hc : c ∉ w) (h : ¬ w <+: rest) :
    ¬ w <+: replaceAll name c rest := by
  induction w generalizing rest with
  | nil => exact absurd List.nil_prefix h
  | cons x w ih =>
    rw [List.mem_cons, not_or] at hw hc
    cases rest with
    | nil => simp [replaceAll]
    | cons y rest =>
      by_cases hit : y = '&' ∧ name <+: rest
      · obtain ⟨rfl, more, rfl⟩ := hit
        rw [replaceAll_hit, List.cons_prefix_cons]
        exact fun h => hc.1 h.1.symm
      · rw [List.cons_prefix_cons] at h
        rw [replaceAll_miss hit, List.cons_prefix_cons]
        exact fun ⟨hxy, hprefix⟩ => ih hw.2 hc.2 (fun hrest => h ⟨hxy, hrest⟩) hprefix

theorem replaceEach_cons (table : List (List Char × Char)) (hx : x ≠ '&') (rest : List Char) :
    replaceEach table (x :: rest) = x :: replaceEach table rest := by
  unfold replaceEach
  induction table generalizing rest with
  | nil => rfl
  | cons entry table ih => rw [List.foldl_cons, List.foldl_cons, replaceAll_miss fun h => hx h.1, ih]

/-- An ampersand that begins no entity begins none after other replacements either. -/
theorem replaceEach_miss {table : List (List Char × Char)}
    (hchars : ∀ entry ∈ table, '&' ∉ entry.1 ∧ ∀ other ∈ table, other.2 ∉ entry.1)
    (hmiss : ∀ entry ∈ table, ¬ entry.1 <+: rest) :
    replaceEach table ('&' :: rest) = '&' :: replaceEach table rest := by
  unfold replaceEach
  induction table generalizing rest with
  | nil => rfl
  | cons entry table ih =>
    obtain ⟨hfirst, hothers⟩ := List.forall_mem_cons.1 hmiss
    rw [List.foldl_cons, List.foldl_cons, replaceAll_miss fun h => hfirst h.2]
    refine ih (fun e he => ?_) fun e he => ?_
    · obtain ⟨hamp, hnone⟩ := hchars e (List.mem_cons_of_mem _ he)
      exact ⟨hamp, fun other hother => hnone other (List.mem_cons_of_mem _ hother)⟩
    · obtain ⟨hamp, hnone⟩ := hchars e (List.mem_cons_of_mem _ he)
      exact not_prefix_replaceAll entry.1 hamp (hnone entry List.mem_cons_self) (hothers e he)

/-- An entity stays as it is until its turn, and is not taken for part of another one after that. -/
theorem replaceEach_hit (before after : List (List Char × Char)) (hname : '&' ∉ name)
    (hbefore : ∀ entry ∈ before, ∀ more, ¬ entry.1 <+: name ++ more) (hafter : c ≠ '&' ∨ after = []) :
    replaceEach (before ++ (name, c) :: after) ('&' :: (name ++ rest)) =
      c :: replaceEach (before ++ (name, c) :: after) rest := by
  induction before generalizing rest with
  | nil =>
    show replaceEach after (replaceAll name c ('&' :: (name ++ rest))) =
      c :: replaceEach after (replaceAll name c rest)
    rw [replaceAll_hit]
    rcases hafter with hc | rfl
    · exact replaceEach_cons after hc _
    · rfl
  | cons entry before ih =>
    rw [List.forall_mem_cons] at hbefore
    show replaceEach (before ++ (name, c) :: after) (replaceAll entry.1 entry.2 ('&' :: (name ++ rest))) =
      c :: replaceEach (before ++ (name, c) :: after) (replaceAll entry.1 entry.2 rest)
    rw [replaceAll_miss fun h => hbefore.1 rest h.2, replaceAll_append entry.1 entry.2 hname, ih hbefore.2]

/-- Decoding in one go is replacing in turn: no replacement makes or breaks an entity that is replaced later. -/
theorem decodeEntities_eq_replaceEach (cs : List Char) : decodeEntities cs = replaceEach entityTable cs := by
  fun_induction decodeEntities cs with
  | case1 => simp [replaceEach, entityTable, replaceAll]
  | case2 rest ih =>
    rw [ih]
    exact (replaceEach_hit [] (entityTable.drop 1) (by decide) (by simp) (.inl (by decide))).symm
  | case3 rest ih =>
    rw [ih]
    exact (replaceEach_hit (entityTable.take 1) (entityTable.drop 2) (by decide) (by simp [entityTable])
      (.inl (by decide))).symm
  | case4 rest ih =>
    rw [ih]
    exact (replaceEach_hit (entityTable.take 2) (entityTable.drop 3) (by decide) (by simp [entityTable])
      (.inl (by decide))).symm
  | case5 rest ih =>
    rw [ih]
    exact (replaceEach_hit (entityTable.take 3) (entityTable.drop 4) (by decide) (by simp [entityTable])
      (.inl (by decide))).symm
  | case6 rest ih =>
    rw [ih]
    exact (replaceEach_hit (entityTable.take 4) [] (by decide) (by simp [entityTable]) (.inr rfl)).symm
  | case7 c rest hquot hapos hlt hgt hamp ih =>
    rw [ih]
    by_cases hc : c = '&'
    · subst hc
      refine (replaceEach_miss (by decide) ?_).symm
      rintro entry hentry ⟨more, rfl⟩
      simp only [entityTable, List.mem_cons, List.not_mem_nil, or_false] at hentry
      rcases hentry with rfl | rfl | rfl | rfl | rfl
      · exact hquot more rfl rfl
      · exact hapos more rfl rfl
      · exact hlt more rfl rfl
      · exact hgt more rfl rfl
      · exact hamp more rfl rfl
    · exact (replaceEach_cons entityTable hc rest).symm

end PageBindings.Markup
