import PandaProbe.EmbeddingCache
import PandaProbe.Text

/-! # Reading the answer of a model

`LLMEngine._parse_response` takes a Markdown fence off the answer before it is decoded: all up to
the first newline, and from the last three backquotes on.  The decoder and the schema are
parameters (`ResponseReader`), and nothing depends on what they do.

`fences_transparent` is the main result: a fence around a text that does not begin with one
itself makes no difference.  A JSON text never does.
-/
namespace PandaProbe
open Text

/-- Three backquotes. -/
def fence : String := "```"

/-- `json.loads`, `schema.model_validate`, and the `IndexError` of a list that is too short. -/
structure ResponseReader (J T E : Type) where
  loads : String → Except E J
  modelValidate : J → Except E T
  indexError : E

/-- Strip Markdown code fences if present, `none` where there is no line after the fence. -/
def stripFences (text : String) : Option String :=
  if startsWith text fence then
    (afterFirst '\n' text.toList).map fun rest =>
      strip (String.ofList ((beforeLast fence.toList rest).getD rest))
  else some text

namespace ResponseReader
variable {J T E : Type} (reader : ResponseReader J T E)

/-- Extract JSON from the raw LLM response and validate it. -/
def parseResponse (raw : String) : Except E T :=
  match stripFences (strip raw) with
  | none => .error reader.indexError
  | some text => (reader.loads text).bind reader.modelValidate

end ResponseReader

/-! ## Fenced texts -/

/-- A text in a fence: what stands before it, the info string, the text, what stands between the
text and the closing fence, and what comes after. -/
def fenced (before info j closing after : String) : String :=
  before ++ fence ++ info ++ "\n" ++ j ++ closing ++ fence ++ after

theorem isSpace_fence (x : Char) (hx : x ∈ fence.toList) : isSpace x = false := by
  have hall : fence.toList.all (fun x => !isSpace x) = true := by decide +kernel
  simpa using List.all_eq_true.mp hall x hx

/-- White space around a fence is trimmed, and the fence is not. -/
theorem toList_strip_fenced {before info j closing after : String}
    (hbefore : ∀ x ∈ before.toList, isSpace x) (hafter : ∀ x ∈ after.toList, isSpace x) :
    (strip (fenced before info j closing after)).toList =
      fence.toList ++ (info.toList ++ '\n' :: (j.toList ++ closing.toList)) ++ fence.toList := by
  have hsplit : (fenced before info j closing after).toList = before.toList ++
      (fence.toList ++ (info.toList ++ '\n' :: (j.toList ++ closing.toList)) ++ fence.toList) ++
        after.toList := by
    simp [fenced]
  rw [toList_strip, hsplit, trim_append_right hafter, trim_append_left hbefore]
  exact trim_between (by decide) isSpace_fence _

/-- What is inside the fence. -/
theorem stripFences_fenced {text info j closing : String} (hinfo : '\n' ∉ info.toList)
    (htext : text.toList =
      fence.toList ++ (info.toList ++ '\n' :: (j.toList ++ closing.toList)) ++ fence.toList)
    (hclosing : ∀ x ∈ closing.toList, isSpace x) : stripFences text = some (strip j) := by
  have hstart : startsWith text fence = true := by
    rw [startsWith, htext, List.append_assoc, List.isPrefixOf_iff_prefix]
    exact List.prefix_append _ _
  have hline : text.toList =
      (fence.toList ++ info.toList) ++ '\n' :: (j.toList ++ closing.toList ++ fence.toList) := by
    simp [htext]
  have hfirst : afterFirst '\n' text.toList = some (j.toList ++ closing.toList ++ fence.toList) := by
    rw [hline]
    refine afterFirst_append fun hmem => ?_
    rcases List.mem_append.mp hmem with hmem | hmem
    · exact absurd hmem (by decide)
    · exact hinfo hmem
  rw [stripFences, if_pos hstart, hfirst, Option.map_some, beforeLast_append (by decide),
    Option.getD_some, strip, String.toList_ofList, trim_append_right hclosing, strip]

/-- **Code fences are transparent.**  The answer in a fence, with any info string on its first
line and any white space around it and before the closing fence, is read as the answer itself. -/
theorem fences_transparent {J T E : Type} (reader : ResponseReader J T E)
    {before info j closing after : String} (hj : startsWith (strip j) fence = false)
    (hinfo : '\n' ∉ info.toList) (hbefore : ∀ x ∈ before.toList, isSpace x)
    (hclosing : ∀ x ∈ closing.toList, isSpace x) (hafter : ∀ x ∈ after.toList, isSpace x) :
    reader.parseResponse (fenced before info j closing after) = reader.parseResponse j := by
  have hfenced : stripFences (strip (fenced before info j closing after)) = some (strip j) :=
    stripFences_fenced hinfo (toList_strip_fenced hbefore hafter) hclosing
  have hplain : stripFences (strip j) = some (strip j) := by
    rw [stripFences, hj]
    exact if_neg Bool.false_ne_true
  rw [ResponseReader.parseResponse, ResponseReader.parseResponse, hfenced, hplain]

/-- An object with one string, in which fences stand. -/
def sampleAnswer : String := "\x7b\"reason\": \"```\\n```\"\x7d"

/-- A decoder that knows this text. -/
def sampleReader : ResponseReader String String String where
  loads s := if s = sampleAnswer then .ok "```\n```" else .error "JSONDecodeError"
  modelValidate := .ok
  indexError := "IndexError"

/-- The fences inside the string stay. -/
theorem fences_transparent_inner :
    sampleReader.parseResponse (fenced " \n" "json title" sampleAnswer "\n" "\n") =
        sampleReader.parseResponse sampleAnswer ∧
      sampleReader.parseResponse sampleAnswer = .ok "```\n```" :=
  ⟨fences_transparent sampleReader (by decide +kernel) (by decide +kernel)
    (List.all_eq_true.mp (by decide +kernel)) (List.all_eq_true.mp (by decide +kernel))
    (List.all_eq_true.mp (by decide +kernel)), by decide +kernel⟩

end PandaProbe
