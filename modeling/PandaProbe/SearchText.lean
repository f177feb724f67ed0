import PandaProbe.Text

/-! # Searching for a text

`list_sessions` and `_apply_trace_filters` search with `ILIKE`, for a pattern that
`_escape_like` makes of the text: three replacements, one after the other.  The backslash goes
first, so that no later one escapes what an earlier one has put in.  Case is left aside.
-/
namespace PandaProbe

/-- `_escape_like`. -/
def escapeLike (value : String) : String :=
  let escaped := Text.replace '\\' ['\\', '\\'] value.toList
  let escaped := Text.replace '%' ['\\', '%'] escaped
  String.ofList (Text.replace '_' ['\\', '_'] escaped)

/-- The pattern of a search. -/
def searchPattern (query : String) : String := "%" ++ escapeLike query ++ "%"

/-- `text LIKE pattern`, with PostgreSQL's default escape character. -/
def sqlLike (text pattern : String) : Option Bool :=
  Text.like '\\' '%' '_' pattern.toList text.toList

/-- The three replacements are one. -/
theorem toList_escapeLike (value : String) :
    (escapeLike value).toList = value.toList.flatMap (Text.escapeWord '\\' '%' '_') := by
  have hword : ∀ c, ((if c = '\\' then ['\\', '\\'] else [c]).flatMap
      (fun c => if c = '%' then ['\\', '%'] else [c])).flatMap
      (fun c => if c = '_' then ['\\', '_'] else [c]) = Text.escapeWord '\\' '%' '_' c := by
    intro c
    by_cases hescape : c = '\\'
    · subst hescape
      decide
    · by_cases hmany : c = '%'
      · subst hmany
        decide
      · by_cases hone : c = '_'
        · subst hone
          decide
        · simp [Text.escapeWord, hescape, hmany, hone]
  simp only [escapeLike, Text.replace, String.toList_ofList, List.flatMap_assoc]
  refine List.flatMap_congr fun c _ => ?_
  rw [← hword c, List.flatMap_assoc]

/-- **A search finds the text itself.**  Whatever backslashes, percent signs and underscores are
in it, the pattern matches exactly the texts that contain it. -/
theorem search_finds_text (q s : String) :
    sqlLike s (searchPattern q) = some true ↔ ∃ a b, s = a ++ q ++ b := by
  have hpattern : (searchPattern q).toList =
      '%' :: (q.toList.flatMap (Text.escapeWord '\\' '%' '_') ++ ['%']) := by
    simp [searchPattern, toList_escapeLike]
  rw [sqlLike, hpattern, Text.like_escaped (by decide)]
  constructor
  · rintro ⟨a, b, hab⟩
    refine ⟨String.ofList a, String.ofList b, String.toList_inj.mp ?_⟩
    simp [← hab]
  · rintro ⟨a, b, rfl⟩
    exact ⟨a.toList, b.toList, by simp⟩

example : sqlLike "50% off\\_" (searchPattern "0% o") = some true := by decide +kernel
example : sqlLike "500 off" (searchPattern "0% o") = some false := by decide +kernel

end PandaProbe
