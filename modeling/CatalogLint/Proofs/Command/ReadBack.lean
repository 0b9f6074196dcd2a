import CatalogLint.Proofs.Command.Reports
import CatalogLint.Proofs.Json.Values

/-!
# The report for programs can be read back

The report for programs is written as JSON and shown with the styles left out, or not. It has no
styles, so it is shown as it was written, and reading it gives the values that were written. These
tell the findings by the names of their fields.

* `Json.findings?`: the findings that a value tells, looked up by name.
* `plain_reportValue`: what the value of a report is made of.
* `World.toList_shown_jsonReport`: a report is shown as it is written.
* `json_report_reads_back`: **the report can be read back, and so no two lists of findings have the
  same report.**
-/

namespace CatalogLint

open CatalogLint.Text

section Decoding

namespace Json

def int? : Json → Option Int
  | .int n => some n
  | _ => none

def items? : Json → Option (List Json)
  | .array items => some items
  | _ => none

/-- The place that a value tells. -/
def place? (v : Json) : Option Place := do
  let line ← (v.field? "line").bind int?
  let character ← (v.field? "character").bind int?
  return { line, character }

/-- The range that a value tells. -/
def range? (v : Json) : Option Range := do
  let start ← (v.field? "start").bind place?
  let stop ← (v.field? "end").bind place?
  return { start, stop }

/-- What a value tells of another range that explains a finding. -/
def related? (v : Json) : Option Related := do
  let uri ← (v.field? "uri").bind text?
  let range ← (v.field? "range").bind range?
  let message ← (v.field? "message").bind text?
  return { uri, range, message }

/-- The finding that a value tells, with the path of its file. -/
def finding? (v : Json) : Option (String × Diagnostic) := do
  let file ← (v.field? "file").bind text?
  let range ← (v.field? "range").bind range?
  let severity ← ((v.field? "severity").bind text?).bind Severity.ofName?
  let message ← (v.field? "message").bind text?
  let related ← ((v.field? "related_information").bind items?).bind (·.mapM related?)
  let source ← (v.field? "source").bind text?
  let code ← (v.field? "code").bind text?
  return (file, { range, severity, message, related, source, code })

/-- The findings that a value tells, one for each item. -/
def findings? (v : Json) : Option (List (String × Diagnostic)) := v.items?.bind (·.mapM finding?)

end Json

theorem mapM_map_some {α β : Type} {f : α → β} {g : β → Option α} (h : ∀ a, g (f a) = some a)
    (xs : List α) : (xs.map f).mapM g = some xs := by
  induction xs with
  | nil => rfl
  | cons x xs ih => simp [h, ih]

theorem Json.text?_string (s : String) : Json.text? (.string (pointsOf s)) = some s :=
  stringOf?_pointsOf s

theorem Json.range?_toJson (r : Range) : r.toJson.range? = some r := rfl

theorem Json.related?_toJson (r : Related) : r.toJson.related? = some r := by
  have huri : r.toJson.field? "uri" = some (.string (pointsOf r.uri)) := rfl
  have hrange : r.toJson.field? "range" = some r.range.toJson := rfl
  have hmessage : r.toJson.field? "message" = some (.string (pointsOf r.message)) := rfl
  simp [Json.related?, huri, hrange, hmessage, text?_string, range?_toJson]

theorem Severity.ofName?_name (s : Severity) : Severity.ofName? s.name = some s := by
  cases s <;> decide

/-- A finding can be told from its value. -/
theorem Json.finding?_toJson (path : String) (d : Diagnostic) :
    (d.toJson path).finding? = some (path, d) := by
  have hfile : (d.toJson path).field? "file" = some (.string (pointsOf path)) := rfl
  have hrange : (d.toJson path).field? "range" = some d.range.toJson := rfl
  have hseverity : (d.toJson path).field? "severity" =
      some (.string (pointsOf d.severity.name)) := rfl
  have hmessage : (d.toJson path).field? "message" = some (.string (pointsOf d.message)) := rfl
  have hrelated : (d.toJson path).field? "related_information" =
      some (.array (d.related.map (·.toJson))) := rfl
  have hsource : (d.toJson path).field? "source" = some (.string (pointsOf d.source)) := rfl
  have hcode : (d.toJson path).field? "code" = some (.string (pointsOf d.code)) := rfl
  have hitems := mapM_map_some related?_toJson d.related
  simp [Json.finding?, hfile, hrange, hseverity, hmessage, hrelated, hsource, hcode, text?_string,
    range?_toJson, Severity.ofName?_name, items?, hitems]

end Decoding

section Values

variable (room : Nat)

theorem plain_place (p : Place) : Json.Plain (room + 1) p.toJson :=
  Json.plain_object room [("line", .int p.line), ("character", .int p.character)] (by simp)
    (by simp [Json.Plain.int])

theorem plain_range (r : Range) : Json.Plain (room + 2) r.toJson :=
  Json.plain_object (room + 1) [("start", r.start.toJson), ("end", r.stop.toJson)] (by simp)
    (by simp [plain_place])

theorem plain_related (r : Related) : Json.Plain (room + 3) r.toJson :=
  Json.plain_object (room + 2) [("uri", .string r.uri), ("range", r.range.toJson),
    ("message", .string r.message)] (by simp) (by simp [Json.Plain.string, plain_range])

theorem plain_finding (path : String) (d : Diagnostic) : Json.Plain (room + 5) (d.toJson path) := by
  have hrange : Json.Plain (room + 4) d.range.toJson := plain_range (room + 2) d.range
  have hrelated : Json.Plain (room + 4) (.array (d.related.map (·.toJson))) := by
    refine .array fun v hv => ?_
    obtain ⟨r, -, rfl⟩ := List.mem_map.1 hv
    exact plain_related room r
  exact Json.plain_object (room + 4) [("range", d.range.toJson),
    ("severity", .string d.severity.name), ("message", .string d.message),
    ("related_information", .array (d.related.map (·.toJson))), ("source", .string d.source),
    ("code", .string d.code), ("file", .string path)] (by simp)
    (by simp [Json.Plain.string, hrange, hrelated])

/-- The value of a report: the findings, each with the path of its file, in one array. -/
def reportValue (items : List (String × Diagnostic)) : Json :=
  .array (items.map fun x => x.2.toJson x.1)

theorem plain_reportValue (items : List (String × Diagnostic)) :
    Json.Plain 6 (reportValue items) := by
  refine .array fun v hv => ?_
  obtain ⟨x, -, rfl⟩ := List.mem_map.1 hv
  exact plain_finding 0 x.1 x.2

theorem findings?_reportValue (items : List (String × Diagnostic)) :
    (reportValue items).findings? = some items :=
  mapM_map_some (fun x => Json.finding?_toJson x.1 x.2) items

end Values

section Numbers

def Place.numbers (p : Place) : List Int := [p.line, p.character]

def Range.numbers (r : Range) : List Int := r.start.numbers ++ r.stop.numbers

/-- The numbers of a finding: the lines and characters of its range and of those that explain
it. -/
def Diagnostic.numbers (d : Diagnostic) : List Int :=
  d.range.numbers ++ d.related.flatMap (·.range.numbers)

theorem Json.scalar_mem_tokensOf_array {v : Json} {vs : List Json} :
    .scalar v ∈ Json.tokensOf (.array vs) ↔ ∃ u ∈ vs, .scalar v ∈ Json.tokensOf u := by
  have hitems : ∀ vs, .scalar v ∈ Json.tokensOfItems vs ↔
      ∃ u ∈ vs, Json.Token.scalar v ∈ Json.tokensOf u := by
    intro vs
    induction vs with
    | nil => simp [Json.tokensOfItems]
    | cons u vs ih => simp [Json.tokensOfItems, ih]
  cases vs with
  | nil => simp [Json.tokensOf]
  | cons u vs => simp [Json.tokensOf, hitems]

theorem mem_tokensOf_range {r : Range} {n : Int} :
    .scalar (.int n) ∈ Json.tokensOf r.toJson ↔ n ∈ r.numbers := by
  simp [Json.tokensOf, Json.tokensOfFields, Range.toJson, Place.toJson, Range.numbers,
    Place.numbers]

theorem mem_tokensOf_related {r : Related} {n : Int} :
    .scalar (.int n) ∈ Json.tokensOf r.toJson ↔ n ∈ r.range.numbers := by
  simp [Json.tokensOf, Json.tokensOfFields, Related.toJson, mem_tokensOf_range]

theorem mem_tokensOf_finding {path : String} {d : Diagnostic} {n : Int} :
    .scalar (.int n) ∈ Json.tokensOf (d.toJson path) ↔ n ∈ d.numbers := by
  simp [Json.tokensOf, Json.tokensOfFields, Diagnostic.toJson, Diagnostic.numbers,
    mem_tokensOf_range, mem_tokensOf_related, Json.scalar_mem_tokensOf_array]

theorem mem_tokensOf_reportValue {items : List (String × Diagnostic)} {n : Int} :
    .scalar (.int n) ∈ Json.tokensOf (reportValue items) ↔ ∃ x ∈ items, n ∈ x.2.numbers := by
  simp [reportValue, Json.scalar_mem_tokensOf_array, mem_tokensOf_finding]

end Numbers

section Styles

namespace Text

theorem stripStylesFrom_of_not_mem {cs : List Char} (h : '\x1b' ∉ cs) (done : List Char) :
    stripStylesFrom done 0 cs = done.reverse ++ cs := by
  induction cs generalizing done with
  | nil => simp [stripStylesFrom]
  | cons c cs ih =>
    rw [List.mem_cons, not_or] at h
    rw [stripStylesFrom, if_neg (Ne.symm h.1), ih h.2]
    simp

theorem stripStyles_of_not_mem {s : String} (h : '\x1b' ∉ s.toList) : stripStyles s = s := by
  rw [stripStyles, stripStylesFrom_of_not_mem h, List.reverse_nil, List.nil_append,
    String.ofList_toList]

end Text

/-- **A report is shown as it is written**, with a line feed after it. -/
theorem Command.World.toList_shown_jsonReport (w : Command.World) (f : Findings) :
    (w.shown (jsonReport f)).toList = Json.write .pretty 0 (reportValue f.items) ++ ['\n'] := by
  have htext : (jsonReport f ++ "\n").toList =
      Json.write .pretty 0 (reportValue f.items) ++ ['\n'] := by
    rw [jsonReport_eq, Json.pretty, String.toList_append, String.toList_ofList]
    rfl
  -- a style would begin with a control character, and those are written as escapes
  have hstyles : '\x1b' ∉ (jsonReport f ++ "\n").toList := by
    intro hmem
    have hordinary := Json.ordinary_write (plain_reportValue f.items) 0
    rw [htext] at hmem
    rcases List.mem_append.1 hmem with hmem | hmem
    · cases List.all_eq_true.1 hordinary _ hmem
    · cases List.mem_singleton.1 hmem
  unfold Command.World.shown
  split
  · exact htext
  · rw [stripStyles_of_not_mem hstyles, htext]

end Styles

namespace Command

/-- **The report for programs can be read back.** What is shown of it, with styles or without, is
read as one array with a value for each finding, in order, exactly if no number in it has more
digits than can be read. The values tell the findings, and the paths of their files. So reports
are the same only if the findings are, each with its path. -/
theorem json_report_reads_back (w : World) (f : Findings) :
    let text := w.shown (jsonReport f)
    let value := Json.array (f.items.map fun x => x.2.toJson x.1)
    (Json.read text.toList = .ok value ↔
      ∀ x ∈ f.items, ∀ n ∈ x.2.numbers, (Nat.toDigits 10 n.natAbs).length ≤ Json.digitLimit) ∧
    value.findings? = some f.items ∧
    ∀ (w' : World) (g : Findings), w'.shown (jsonReport g) = text ↔ g.items = f.items := by
  intro text value
  have hspace : ∀ c ∈ ['\n'], Json.isSpace c = true := by
    intro c hc
    rw [List.mem_singleton.1 hc]
    rfl
  have hroom : 6 ≤ Json.depthLimit := by decide
  refine ⟨?_, findings?_reportValue f.items, ?_⟩
  · have hread := Json.read_write_iff (plain_reportValue f.items) hroom hspace
    rw [← w.toList_shown_jsonReport f] at hread
    simp only [mem_tokensOf_reportValue] at hread
    refine hread.trans ?_
    constructor
    · intro h x hx n hn
      exact h n ⟨x, hx, hn⟩
    · rintro h n ⟨x, hx, hn⟩
      exact h x hx n hn
  · intro w' g
    constructor
    · intro h
      have hwritten := congrArg String.toList h
      rw [w'.toList_shown_jsonReport, w.toList_shown_jsonReport] at hwritten
      have hvalue := Json.write_injective (plain_reportValue g.items) (plain_reportValue f.items)
        hroom hroom hspace hspace hwritten
      have hfound := findings?_reportValue g.items
      rw [hvalue, findings?_reportValue] at hfound
      exact (Option.some.inj hfound).symm
    · intro h
      apply String.toList_injective
      rw [w'.toList_shown_jsonReport, w.toList_shown_jsonReport, h]

end Command

end CatalogLint
