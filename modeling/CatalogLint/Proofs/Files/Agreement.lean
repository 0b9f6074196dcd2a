import CatalogLint.Files.Analysis
import CatalogLint.Proofs.Text.Bytes

/-!
# A file is analysed like its text

* `parse_textOfBytes`: the bytes of a text are read as the same catalog, or have the same fault in
  the same place.
* `file_agrees_with_text`: **the reports on a file are those on its text.**
-/

namespace CatalogLint

open CatalogLint.Text

/-- The bytes of a text are read as the text is, although its line ends come out unified. -/
theorem parse_textOfBytes (text : String) :
    Catalog.parse (textOfBytes (Utf8.encode text)) = Catalog.parse text := by
  have hlines : lines (dropMark (unifyBreaks text.toList)) = lines (dropMark text.toList) := by
    rw [dropMark_unifyBreaks, lines_unifyBreaks]
  unfold Catalog.parse textOfBytes
  rw [Utf8.decodeReplacing_encode, String.toList_ofList, hlines]

/-- An analysis looks at a text only through its catalog. -/
theorem analyze_congr {text text' : String} (h : Catalog.parse text = Catalog.parse text')
    (uri : String) (settings : Settings) (checks : Option (List String)) :
    analyze text uri settings checks = analyze text' uri settings checks := by
  unfold analyze
  rw [h]

/-- **A file is analysed like its text.** If a path leads to a file with the bytes of a text, the
reports on the file, or the fault that it has instead, and all that is logged are those of the text
under the URI of the file, with any settings and any checks. -/
theorem file_agrees_with_text {root : FileTree} {current names : List String}
    {path text : String}
    (hf : root.lookup current (FileTree.plainPath path) = .ok (names, .file (Utf8.encode text)))
    (settings : Settings) (checks : Option (List String)) :
    (analyzeFile root current path settings checks).value =
        (analyze text (fileUri names) settings checks).value.mapError .analysis ∧
      (analyzeFile root current path settings checks).log =
        (analyze text (fileUri names) settings checks).log := by
  have hbytes : analyzeBytes (Utf8.encode text) (fileUri names) settings checks =
      analyze text (fileUri names) settings checks :=
    analyze_congr (parse_textOfBytes text) _ _ _
  unfold analyzeFile
  simp only [hf, hbytes]
  exact ⟨rfl, List.append_nil _⟩

/-- A text with all kinds of line ends, after a byte order mark. -/
def mixedText : String :=
  "\ufeffmsgid \"a\"\r\nmsgstr \"é\"\r\r\n\n\rmsgid \"a\"\nmsgstr \"😀"

/-- The current directory holds a file with that text. -/
def mixedTree : FileTree := .dir [("work", .dir [("a b.po", .file (Utf8.encode mixedText))])]

/-- The open literal at the end is found on the same line and column. -/
theorem file_agrees_with_text_mixed :
    mixedTree.lookup ["work"] (FileTree.plainPath "./a b.po") =
        .ok (["work", "a b.po"], .file (Utf8.encode mixedText)) ∧
      (analyze mixedText "file:///work/a%20b.po").value =
        .error (.parse ⟨7, 8, .unterminated⟩) ∧
      (analyzeFile mixedTree ["work"] "./a b.po").value =
        .error (.analysis (.parse ⟨7, 8, .unterminated⟩)) := by
  have hf : mixedTree.lookup ["work"] (FileTree.plainPath "./a b.po") =
      .ok (["work", "a b.po"], .file (Utf8.encode mixedText)) := by
    have hr : mixedTree.resolve ["work"] (FileTree.plainPath "./a b.po") =
        .ok ["work", "a b.po"] := by decide +kernel
    rw [FileTree.lookup, hr]
    rfl
  have huri : fileUri ["work", "a b.po"] = "file:///work/a%20b.po" := by decide +kernel
  have ha : (analyze mixedText "file:///work/a%20b.po").value =
      .error (.parse ⟨7, 8, .unterminated⟩) := by decide +kernel
  refine ⟨hf, ha, ?_⟩
  rw [(file_agrees_with_text hf {} none).1, huri, ha]
  rfl

end CatalogLint
