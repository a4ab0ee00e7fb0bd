import Logbook.Capture
import Logbook.Proofs.Json.OneLine
import Logbook.Proofs.Text.Utf8

/-!
# A console that is captured

Records are written one after the other through a writer in memory (`Capture.ofConsole`). What the
writer then holds is the records behind one another (`contents_ofConsole`). If every record is a
printable text and a line feed, the lines of the writer are these texts, one for each record
(`lines_ofConsole`).
-/

set_option autoImplicit false
set_option relaxedAutoImplicit false

namespace Logbook

namespace Text

/-! ### Lines -/

/-- A text without a line feed extends the current line, and the line feed behind it ends it. -/
theorem linesFrom_line (current : List Char) (done : List (List Char)) {text : List Char}
    (h : '\n' ∉ text) (rest : List Char) :
    linesFrom current done (text ++ '\n' :: rest) =
      linesFrom [] (endLine (text.reverse ++ current) :: done) rest := by
  induction text generalizing current with
  | nil => rfl
  | cons c text ih =>
    rw [List.mem_cons, not_or] at h
    rw [List.cons_append, linesFrom, ih (c :: current) h.2, List.reverse_cons, List.append_assoc,
      List.singleton_append]
    exact fun hc ↦ h.1 hc.symm

/-- A line that does not end in a carriage return is shown as it is. -/
theorem endLine_reverse {text : List Char} (h : '\r' ∉ text) : endLine text.reverse = text := by
  unfold endLine
  split
  · next rest heq =>
    refine absurd ?_ h
    rw [← List.mem_reverse, heq]
    exact List.mem_cons_self
  · rw [List.reverse_reverse]

theorem linesFrom_flatMap (done : List (List Char)) {texts : List (List Char)}
    (h : ∀ text ∈ texts, Json.Printable text) :
    linesFrom [] done (texts.flatMap fun text ↦ text ++ ['\n']) = done.reverse ++ texts := by
  induction texts generalizing done with
  | nil => simp [linesFrom]
  | cons text rest ih =>
    rw [List.forall_mem_cons] at h
    have hfeed : '\n' ∉ text := fun hmem ↦ h.1 '\n' hmem (by decide)
    have hreturn : '\r' ∉ text := fun hmem ↦ h.1 '\r' hmem (by decide)
    rw [List.flatMap_cons, List.append_assoc, List.singleton_append, linesFrom_line _ _ hfeed,
      List.append_nil, endLine_reverse hreturn, ih _ h.2, List.reverse_cons, List.append_assoc,
      List.singleton_append]

/-- Printable texts with a line feed behind each are the lines of what they make up. -/
theorem lines_flatMap {texts : List (List Char)} (h : ∀ text ∈ texts, Json.Printable text) :
    lines (texts.flatMap fun text ↦ text ++ ['\n']) = texts :=
  linesFrom_flatMap [] h

end Text

namespace Capture

/-! ### Records -/

/-- Records that are written one after the other through a writer in memory. -/
def ofConsole (records : List String) : Capture :=
  fresh.run (records.map fun r ↦ .write 0 r.toUTF8)

theorem ofConsole_eq (records : List String) :
    ofConsole records = ⟨[0], [(String.join records).toUTF8]⟩ := by
  induction records using List.reverseRecOn with
  | nil => rfl
  | append_singleton records r ih =>
    have hrun : ofConsole (records ++ [r]) = (ofConsole records).step (.write 0 r.toUTF8) := by
      rw [ofConsole, ofConsole, List.map_append, List.map_singleton, run, run, List.foldl_concat]
    have hjoin : (String.join (records ++ [r])).toUTF8 =
        (String.join records).toUTF8 ++ r.toUTF8 := by
      simp
    rw [hrun, ih, hjoin]
    rfl

/-- The writer holds the records behind one another. -/
theorem contents_ofConsole (records : List String) :
    (ofConsole records).contents 0 = String.join records := by
  rw [ofConsole_eq, contents]
  exact Text.Utf8.lossy_toUTF8 _

/-- Records of one line each are the lines of what is captured. -/
theorem lines_ofConsole {texts : List (List Char)} (h : ∀ text ∈ texts, Json.Printable text) :
    (ofConsole (texts.map fun text ↦ String.ofList (text ++ ['\n']))).lines 0 =
      texts.map String.ofList := by
  have hchars : (String.join (texts.map fun text ↦ String.ofList (text ++ ['\n']))).toList =
      texts.flatMap fun text ↦ text ++ ['\n'] := by
    rw [String.toList_join, List.flatMap_map]
    simp only [String.toList_ofList]
  rw [lines, contents_ofConsole, hchars, Text.lines_flatMap h]

end Capture

end Logbook
