import Mathlib.Data.List.TakeWhile
import PageBindings.Proofs.Json.RoundTrip
import PageBindings.Proofs.Text.FormEncoding
import PageBindings.Request

/-!
# What the URL of a request carries

The URL of a request with parameters is its path and one more pair for the query, from which a reader gets the name of
the parameter and the JSON text of the list back, whatever texts the list holds (`request_carries_parameters`).  No
other list has that text, and the list is read from it if its doubles read back.  A server gets to see the query, but
no fragment: the pair comes to it after those of the path, unless the path has a fragment, of which the pair is then a
part (`parameters_in_query_iff`).
-/

namespace PageBindings

variable {settings : Settings} {clientId path : String} {parameters : List Json}

/-- The query of a URL: what comes after the first question mark. -/
def queryOf (url : List Char) : List Char :=
  (url.dropWhile (· != '?')).drop 1

/-- The character that goes between a path and one more pair of its query. -/
def separator (path : String) : Char :=
  if '?' ∈ path.toList then '&' else '?'

/--
A URL is a path with a query that carries the JSON text of parameters under a name.  Reading the text is subject to
the limits of JSON texts and to the reading of doubles.
-/
structure Carries (url path name : String) (parameters : List Json) (query json : String) : Prop where
  spelled : url.toList = path.toList ++ separator path :: query.toList
  chars {c : Char} (h : c ∈ query.toList) : Text.IsFormChar c ∨ c = '='
  count : query.toList.count '=' = 1
  /-- The two sides of the equals sign are the name and the text, encoded. -/
  sides : ∃ left right, query = left ++ "=" ++ right ∧ Text.formDecoded? left = some name ∧
    Text.formDecoded? right = some json
  text : json = (Json.array parameters).render
  read (sorted : (Json.array parameters).IsSorted) (depth : (Json.array parameters).depth < 128)
    (numbers : (Json.array parameters).ReadsBack) : Json.parse? json = some (.array parameters)
  /-- The pairs of the query that the path has are still there, and the name and the text are the only other pair. -/
  pairs : Text.formPairs? (queryOf url.toList) =
    (Text.formPairs? (queryOf path.toList)).map (· ++ [(name, json)])

/-! ### The query -/

theorem url_forEndpoint (settings : Settings) (clientId path : String) (h : parameters ≠ []) :
    (Request.forEndpoint settings clientId path parameters).url.toList = path.toList ++
      separator path :: (Text.formPair settings.parameterKey (Json.array parameters).render).toList := by
  have hseparator : (if path.toList.contains '?' then "&" else "?") = String.singleton (separator path) := by
    unfold separator
    by_cases hmark : '?' ∈ path.toList
    · simp [hmark]
    · simp [hmark]
  cases parameters with
  | nil => exact absurd rfl h
  | cons first rest =>
    unfold Request.forEndpoint parameterQuery
    dsimp only
    rw [hseparator]
    simp [Text.formPair]

private theorem count_formPair (name value : String) : (Text.formPair name value).toList.count '=' = 1 := by
  have hnone : ∀ s : String, (Text.formEncoded s).toList.count '=' = 0 := fun s =>
    List.count_eq_zero.2 fun h => Text.not_isFormChar_equals (Text.isFormChar_of_mem_formEncoded h)
  rw [Text.toList_formPair, List.count_append, List.count_cons_self, hnone, hnone]

private theorem chars_formPair {name value : String} {c : Char} (h : c ∈ (Text.formPair name value).toList) :
    Text.IsFormChar c ∨ c = '=' := by
  rw [Text.toList_formPair, List.mem_append, List.mem_cons] at h
  rcases h with h | h | h
  · exact .inl (Text.isFormChar_of_mem_formEncoded h)
  · exact .inr h
  · exact .inl (Text.isFormChar_of_mem_formEncoded h)

private theorem queryOf_append_cons {before : List Char} (h : '?' ∉ before) (rest : List Char) :
    queryOf (before ++ '?' :: rest) = rest := by
  have hbefore : ∀ c ∈ before, (c != '?') = true := fun c hc => bne_iff_ne.2 fun he => h (he ▸ hc)
  unfold queryOf
  rw [List.dropWhile_append_of_pos hbefore, List.dropWhile_cons_of_neg (by simp), List.drop_succ_cons, List.drop_zero]

private theorem queryOf_of_not_mem {url : List Char} (h : '?' ∉ url) : queryOf url = [] := by
  have hnone : url.dropWhile (· != '?') = [] :=
    List.dropWhile_eq_nil_iff.2 fun c hc => bne_iff_ne.2 fun he => h (he ▸ hc)
  unfold queryOf
  rw [hnone, List.drop_nil]

/-- What comes after the separator is one more piece of the query of the path, or the first. -/
private theorem formPieces_separator (path name value : String) :
    Text.formPieces (queryOf (path.toList ++ separator path :: (Text.formPair name value).toList)) =
      Text.formPieces (queryOf path.toList) ++ [(Text.formPair name value).toList] := by
  unfold separator
  by_cases hmark : '?' ∈ path.toList
  · obtain ⟨before, query, hpath, hbefore⟩ := List.eq_append_cons_of_mem hmark
    rw [if_pos hmark, hpath, queryOf_append_cons hbefore, List.append_assoc, List.cons_append,
      queryOf_append_cons hbefore]
    exact Text.formPieces_append query name value
  · rw [if_neg hmark, queryOf_append_cons hmark, queryOf_of_not_mem hmark]
    exact Text.formPieces_formPair name value

private theorem formPairs?_separator (path name value : String) :
    Text.formPairs? (queryOf (path.toList ++ separator path :: (Text.formPair name value).toList)) =
      (Text.formPairs? (queryOf path.toList)).map (· ++ [(name, value)]) := by
  rw [Text.formPairs?_eq, formPieces_separator, List.mapM_append, List.mapM_cons, Text.formPair?_formPair,
    Text.formPairs?_eq]
  cases (Text.formPieces (queryOf path.toList)).mapM Text.formPair? with
  | none => rfl
  | some pairs => rfl

private theorem formFields_separator (path name value : String) :
    Text.formFields (queryOf (path.toList ++ separator path :: (Text.formPair name value).toList)) =
      Text.formFields (queryOf path.toList) ++ [(Text.utf8 name, Text.utf8 value)] := by
  unfold Text.formFields
  rw [formPieces_separator, List.map_append, List.map_singleton, Text.formField_formPair]

/-! ### The parameters -/

/-- Different values have different encoded texts. -/
private theorem eq_of_formEncoded_render {v w : Json} (h : Text.formEncoded v.render = Text.formEncoded w.render) :
    v = w := by
  have hdecoded := Text.formDecoded?_formEncoded v.render
  rw [h, Text.formDecoded?_formEncoded] at hdecoded
  exact Json.render_injective (Option.some.inj hdecoded).symm

/-- A request says which parameters it has, whether it has any or none. -/
private theorem eq_of_url {settings' : Settings} {clientId' : String} {parameters' : List Json}
    (nonempty : parameters ≠ []) (hkey : settings'.parameterKey = settings.parameterKey)
    (h : (Request.forEndpoint settings' clientId' path parameters').url =
      (Request.forEndpoint settings clientId path parameters).url) : parameters' = parameters := by
  have hurl := congrArg String.toList h
  rw [url_forEndpoint settings clientId path nonempty] at hurl
  by_cases hempty : parameters' = []
  · -- without parameters the URL is the path, which is shorter
    subst hempty
    have hlength := congrArg List.length hurl
    simp [Request.forEndpoint, parameterQuery] at hlength
  · rw [url_forEndpoint settings' clientId' path hempty, List.append_cancel_left_eq, List.cons.injEq,
      String.toList_inj, hkey] at hurl
    have htext : Text.formEncoded (Json.array parameters').render = Text.formEncoded (Json.array parameters).render :=
      (String.append_right_inj _).1 hurl.2
    exact Json.array.inj (eq_of_formEncoded_render htext)

/--
The URL of a request is its path and one more pair of the query, from which the text of the parameters can be
decoded.  The text is read as the parameters if they are nested less than 128 deep and every double in them is read as
the double it was written for; and two lists of parameters never give the same URL, whether they are read back or not.
-/
theorem request_carries_parameters (settings : Settings) (clientId path : String) (nonempty : parameters ≠ []) :
    (∃ query json, Carries (Request.forEndpoint settings clientId path parameters).url path settings.parameterKey
      parameters query json) ∧
    ∀ (settings' : Settings) (clientId' : String) (parameters' : List Json),
      settings'.parameterKey = settings.parameterKey →
      (Request.forEndpoint settings' clientId' path parameters').url =
        (Request.forEndpoint settings clientId path parameters).url → parameters' = parameters := by
  have hurl := url_forEndpoint settings clientId path nonempty
  refine ⟨⟨Text.formPair settings.parameterKey (Json.array parameters).render, (Json.array parameters).render,
    ?_⟩, ?_⟩
  · refine ⟨hurl, chars_formPair, count_formPair _ _, ?_, rfl, fun hsorted hdepth hnumbers => ?_, ?_⟩
    · exact ⟨_, _, rfl, Text.formDecoded?_formEncoded _, Text.formDecoded?_formEncoded _⟩
    · exact Json.parse?_render hsorted (Nat.le_of_lt_succ hdepth) hnumbers
    · rw [hurl]
      exact formPairs?_separator _ _ _
  · intro settings' clientId' parameters' hkey h
    exact eq_of_url nonempty hkey h

/-- Parameters that look like more of a query. -/
def intrusive : List Json :=
  [.string "\"]&admin=1&q=[\"%26+é", .object [("=", .null), ("?", .array [.bool true])],
    .number (.double ⟨true, 0x1999999999999a, -56, by decide⟩)]

theorem request_carries_parameters_intrusive :
    (∃ query json, Carries (Request.forEndpoint { parameterKey := "a&b=c" } "" "/items?page=2" intrusive).url
      "/items?page=2" "a&b=c" intrusive query json ∧ Json.parse? json = some (.array intrusive)) ∧
    (Request.forEndpoint { parameterKey := "a&b=c" } "" "/items?page=2" [.null]).url ≠
      (Request.forEndpoint { parameterKey := "a&b=c" } "" "/items?page=2" intrusive).url := by
  have hkeys : ["=", "?"].Pairwise (· < ·) := List.pairwise_pair.2 (by decide +kernel)
  have hsorted : (Json.array intrusive).IsSorted :=
    ⟨trivial, ⟨hkeys, trivial, ⟨trivial, trivial⟩, trivial⟩, trivial, trivial⟩
  have hdepth : (Json.array intrusive).depth < 128 := by decide
  have hnumbers : (Json.array intrusive).ReadsBack :=
    ⟨trivial, ⟨trivial, ⟨trivial, trivial⟩, trivial⟩,
      Json.readsBack_double (by decide +kernel) (by decide +kernel), trivial⟩
  obtain ⟨⟨query, json, hcarries⟩, hunique⟩ :=
    request_carries_parameters { parameterKey := "a&b=c" } "" "/items?page=2" (List.cons_ne_nil _ _)
  refine ⟨⟨query, json, hcarries, hcarries.read hsorted hdepth hnumbers⟩, fun h => ?_⟩
  have hsame := hunique _ "" [.null] rfl h
  simp at hsame

/-! ### Fragments -/

/-- The query of a URL that may have a fragment, which begins at the first number sign. -/
def queryComponent (url : String) : List Char :=
  queryOf (url.toList.takeWhile (· != '#'))

private theorem takeWhile_of_not_mem {url : List Char} (h : '#' ∉ url) : url.takeWhile (· != '#') = url := by
  refine List.takeWhile_eq_self_iff.2 fun c hc => ?_
  have hne : c ≠ '#' := fun he => h (he ▸ hc)
  simp [hne]

private theorem takeWhile_append_of_mem {url : List Char} (h : '#' ∈ url) (rest : List Char) :
    (url ++ rest).takeWhile (· != '#') = url.takeWhile (· != '#') := by
  induction url with
  | nil => simp at h
  | cons c url ih =>
    rw [List.cons_append, List.takeWhile_cons, List.takeWhile_cons]
    by_cases hc : c = '#'
    · simp [hc]
    · have hmem : '#' ∈ url := (List.mem_cons.1 h).resolve_left (Ne.symm hc)
      rw [ih hmem]

/-- Nothing in what follows the path begins a fragment. -/
private theorem not_mem_separator_formPair (path name value : String) :
    '#' ∉ separator path :: (Text.formPair name value).toList := by
  intro h
  rcases List.mem_cons.1 h with h | h
  · unfold separator at h
    split at h
    · exact absurd h (by decide)
    · exact absurd h (by decide)
  · rcases chars_formPair h with h | h
    · exact absurd h (by decide)
    · exact absurd h (by decide)

/--
The parameters of a request are one more pair of its query, after those of the path, exactly if the path has no
fragment.  If it has one, then the query is that of the path.
-/
theorem parameters_in_query_iff (settings : Settings) (clientId path : String) (nonempty : parameters ≠ []) :
    (Text.formFields (queryComponent (Request.forEndpoint settings clientId path parameters).url) =
        Text.formFields (queryComponent path) ++
          [(Text.utf8 settings.parameterKey, Text.utf8 (Json.array parameters).render)] ↔ '#' ∉ path.toList) ∧
      ('#' ∈ path.toList →
        queryComponent (Request.forEndpoint settings clientId path parameters).url = queryComponent path) := by
  have hurl := url_forEndpoint settings clientId path nonempty
  have hsame : '#' ∈ path.toList →
      queryComponent (Request.forEndpoint settings clientId path parameters).url = queryComponent path := by
    intro hmem
    unfold queryComponent
    rw [hurl, takeWhile_append_of_mem hmem]
  refine ⟨⟨fun hfields hmem => ?_, fun hnot => ?_⟩, hsame⟩
  · rw [hsame hmem] at hfields
    have hlength := congrArg List.length hfields
    rw [List.length_append, List.length_singleton] at hlength
    omega
  · have hnone : '#' ∉ path.toList ++
        separator path :: (Text.formPair settings.parameterKey (Json.array parameters).render).toList := by
      rw [List.mem_append, not_or]
      exact ⟨hnot, not_mem_separator_formPair path _ _⟩
    unfold queryComponent
    rw [hurl, takeWhile_of_not_mem hnone, takeWhile_of_not_mem hnot]
    exact formFields_separator path _ _

/-- The path has a pair that is no text, and empty pieces before and after it. -/
theorem parameters_in_query_iff_untextual :
    intrusive ≠ [] ∧ '#' ∉ "/items?&page=%FF&".toList ∧
      Text.formFields (queryComponent (Request.forEndpoint { parameterKey := "a&b=c" } "" "/items?&page=%FF&"
        intrusive).url) =
        [(Text.utf8 "page", [255]), (Text.utf8 "a&b=c", Text.utf8 (Json.array intrusive).render)] := by
  have hne : intrusive ≠ [] := List.cons_ne_nil _ _
  have hnot : '#' ∉ "/items?&page=%FF&".toList := by decide
  have hpath : Text.formFields (queryComponent "/items?&page=%FF&") = [(Text.utf8 "page", [255])] := by decide +kernel
  refine ⟨hne, hnot, ?_⟩
  rw [((parameters_in_query_iff { parameterKey := "a&b=c" } "" "/items?&page=%FF&" hne).1).2 hnot, hpath]
  rfl

/-- After a number sign the pair is no part of the query. -/
theorem fragment_takes_parameters :
    (Request.forEndpoint {} "c" "/a#b" [.null]).url = "/a#b?__params=%5Bnull%5D" ∧
      Text.formFields (queryComponent (Request.forEndpoint {} "c" "/a#b" [.null]).url) ≠
        Text.formFields (queryComponent "/a#b") ++
          [(Text.utf8 "__params", Text.utf8 (Json.array [.null]).render)] := by
  have hurl : (Request.forEndpoint {} "c" "/a#b" [.null]).url = "/a#b?__params=%5Bnull%5D" := by decide +kernel
  refine ⟨hurl, ?_⟩
  rw [hurl]
  decide +kernel

end PageBindings
