import Mathlib.Data.List.Basic
import SchemaBaseline.Proofs.Compat.Verdict
import SchemaBaseline.Proofs.Text.Legible

/-!
# Reports lose nothing

A report opens with a verdict, goes on with a section for every list that is not empty, and may
close with a line that says all is clear. Items can look like any of these lines. What keeps the
parts apart all the same is where a line can stand: a section opens with its title, of which the
next section has another (`title_eq_of_titleLine_eq`), and goes on with lines that are not empty
until one is (`sectionLines_append_inj`). So the lines tell the lists (`reportLines_inj`), and as
long as no item has a line feed in it, so does the text. `report_faithful` is the whole.
-/

namespace SchemaBaseline

/-- The lines of a text. -/
def Text.lines (text : String) : List (List Char) :=
  text.toList.splitOn '\n'

namespace Findings

/-! ## How a report opens -/

/-- What the report of findings opens with. -/
def verdict (f : Findings) : String :=
  if f.isValid then "Schema Validation PASSED" else "Schema Validation FAILED"

theorem verdict_isPrefix_report (f : Findings) : f.verdict.toList <+: f.report.toList := by
  unfold report reportLines joined
  simp only [List.cons_append, List.append_assoc, String.intercalate_cons_cons,
    String.toList_append]
  exact List.prefix_append _ _

theorem verdict_length (f : Findings) : f.verdict.toList.length = 24 := by
  unfold verdict
  split <;> decide

/-- A report opens with its verdict and with no other text of that length. -/
theorem isPrefix_report_iff {f : Findings} {title : List Char} (length : title.length = 24) :
    title <+: f.report.toList ↔ title = f.verdict.toList := by
  have same : title.length = f.verdict.toList.length := length.trans f.verdict_length.symm
  constructor
  · intro opens
    exact (List.prefix_of_prefix_length_le opens f.verdict_isPrefix_report
      (Nat.le_of_eq same)).eq_of_length same
  · rintro rfl
    exact f.verdict_isPrefix_report

/-- What opens with neither verdict is no report of findings. -/
theorem report_ne {f : Findings} {text : String}
    (unpassed : ¬ "Schema Validation PASSED".toList <+: text.toList)
    (unfailed : ¬ "Schema Validation FAILED".toList <+: text.toList) : f.report ≠ text := by
  rintro rfl
  have opens := f.verdict_isPrefix_report
  unfold verdict at opens
  split at opens
  · exact unpassed opens
  · exact unfailed opens

/-- The first line is the verdict, whatever the items are. -/
theorem head?_lines_report (f : Findings) :
    (Text.lines f.report).head? = some f.verdict.toList := by
  have unbroken : '\n' ∉ f.verdict.toList := by
    unfold verdict
    split <;> decide
  unfold Text.lines report reportLines joined
  simp only [List.cons_append, List.append_assoc, String.intercalate_cons_cons,
    String.toList_append]
  exact congrArg List.head? (List.splitOn_append_cons_self_of_not_mem unbroken _)

/-! ## The lines of a section -/

/-- The line that opens a section. -/
def titleLine (title : String) (count : Nat) : String :=
  s!"{title} ({count}):"

/-- The line of an item. -/
def itemLine (marker item : String) : String :=
  s!"  {marker} {item}"

theorem sectionLines_cons (title marker item : String) (items : List String) :
    sectionLines title marker (item :: items) =
      titleLine title (items.length + 1) :: ((item :: items).map (itemLine marker) ++ [""]) :=
  rfl

theorem toList_titleLine (title : String) (count : Nat) :
    (titleLine title count).toList =
      title.toList ++ ' ' :: '(' :: ((toString count).toList ++ [')', ':']) := by
  show (title ++ " (" ++ toString count ++ "):").toList = _
  simp only [String.toList_append, List.append_assoc]
  rfl

theorem toList_itemLine (marker item : String) :
    (itemLine marker item).toList = ' ' :: ' ' :: (marker.toList ++ ' ' :: item.toList) := by
  show ("  " ++ marker ++ " " ++ item).toList = _
  simp only [String.toList_append, List.append_assoc]
  rfl

theorem itemLine_ne_empty (marker item : String) : itemLine marker item ≠ "" := by
  intro empty
  have same := congrArg String.toList empty
  rw [toList_itemLine] at same
  cases same

theorem itemLine_inj {marker item other : String}
    (same : itemLine marker item = itemLine marker other) : item = other := by
  have same := congrArg String.toList same
  rw [toList_itemLine, toList_itemLine] at same
  exact String.toList_inj.mp (List.cons.inj
    (List.append_cancel_left (List.cons.inj (List.cons.inj same).2).2)).2

/-- A title without brackets is told by the line that it opens a section with. -/
theorem title_eq_of_titleLine_eq {title other : String} {m n : Nat} (plain : '(' ∉ title.toList)
    (plain' : '(' ∉ other.toList) (same : titleLine title m = titleLine other n) :
    title = other := by
  have before {t : String} (plain : '(' ∉ t.toList) :
      ∀ c ∈ t.toList ++ [' '], (c != '(') = true := by
    intro c member
    rcases List.mem_append.mp member with inside | last
    · exact bne_iff_ne.mpr fun bracket => plain (bracket ▸ inside)
    · obtain rfl := List.mem_singleton.mp last
      rfl
  have same := congrArg String.toList same
  rw [toList_titleLine, toList_titleLine, List.append_cons, List.append_cons other.toList] at same
  obtain ⟨titles, -⟩ :=
    Text.legible_run (· != '(') (before plain) (before plain') (Text.startsOutside_cons.mpr rfl)
      (Text.startsOutside_cons.mpr rfl) same
  exact String.toList_inj.mp (List.append_cancel_right titles)

/-- The lines of items go on up to the first empty line. -/
theorem itemLines_append_inj {marker : String} {items items' rest rest' : List String}
    (same : items.map (itemLine marker) ++ "" :: rest = items'.map (itemLine marker) ++
      "" :: rest') :
    items = items' ∧ rest = rest' := by
  induction items generalizing items' with
  | nil =>
    cases items' with
    | nil => exact ⟨rfl, (List.cons.inj same).2⟩
    | cons item' items' =>
      exact absurd (List.cons.inj same).1.symm (itemLine_ne_empty marker item')
  | cons item items ih =>
    cases items' with
    | nil => exact absurd (List.cons.inj same).1 (itemLine_ne_empty marker item)
    | cons item' items' =>
      obtain ⟨first, others⟩ := List.cons.inj same
      obtain ⟨later, follows⟩ := ih others
      exact ⟨by rw [itemLine_inj first, later], follows⟩

/-- Lines that do not open a section of a title. -/
def OpensOther (title : String) (lines : List String) : Prop :=
  ∀ count, lines.head? ≠ some (titleLine title count)

/-- A section, with anything behind it that does not open a section of the same title, tells its
items and what follows. -/
theorem sectionLines_append_inj {title marker : String} {items items' rest rest' : List String}
    (others : OpensOther title rest) (others' : OpensOther title rest')
    (same : sectionLines title marker items ++ rest = sectionLines title marker items' ++ rest') :
    items = items' ∧ rest = rest' := by
  cases items with
  | nil =>
    cases items' with
    | nil => exact ⟨rfl, same⟩
    | cons item' items' =>
      have same : rest = sectionLines title marker (item' :: items') ++ rest' := same
      exact absurd (congrArg List.head? same) (others _)
  | cons item items =>
    cases items' with
    | nil =>
      have same : sectionLines title marker (item :: items) ++ rest = rest' := same
      exact absurd (congrArg List.head? same.symm) (others' _)
    | cons item' items' =>
      rw [sectionLines_cons, sectionLines_cons, List.cons_append, List.cons_append,
        List.append_assoc, List.append_assoc] at same
      exact itemLines_append_inj (List.cons.inj same).2

/-! ## Sections one after the other -/

/-- The titles of the sections, each with the marker of its items. -/
def headings : List (String × String) := [
  ("Errors", "x"), ("Warnings", "!"), ("Missing Types", "-"), ("Missing Fields", "-"),
  ("Type Mismatches", "-"), ("Deprecated Fields", "-")]

/-- The six lists, in the order of their sections. -/
def lists (f : Findings) : List (List String) :=
  [f.errors, f.warnings, f.missingTypes, f.missingFields, f.typeMismatches, f.deprecatedFields]

theorem lists_inj {f g : Findings} (same : f.lists = g.lists) : f = g := by
  cases f
  cases g
  simpa [lists] using same

/-- The lines of sections under given headings. -/
def sections (headings : List (String × String)) (lists : List (List String)) : List String :=
  (List.zipWith (fun heading items => sectionLines heading.1 heading.2 items) headings
    lists).flatten

theorem sections_cons (heading : String × String) (headings : List (String × String))
    (items : List String) (lists : List (List String)) :
    sections (heading :: headings) (items :: lists) = sectionLines heading.1 heading.2 items ++
      sections headings lists :=
  rfl

/-- What a report says when there is nothing to say. -/
def allClear : String := "All schema validations passed successfully!"

/-- The lines that close a report. -/
def closing (f : Findings) : List String :=
  if f.isValid && f.warnings.isEmpty then [allClear, ""] else []

theorem reportLines_eq (f : Findings) :
    f.reportLines = f.verdict :: "" :: (sections headings f.lists ++ f.closing) := by
  simp only [reportLines, sections, headings, lists, List.zipWith_cons_cons,
    List.zipWith_nil_left, List.flatten_cons, List.flatten_nil, List.append_nil,
    List.append_assoc, List.cons_append, List.nil_append]
  rfl

/-- What holds of the lines of each section holds of all of them. -/
theorem forall_mem_sections {P : String → Prop} {headings : List (String × String)}
    {lists : List (List String)}
    (each : ∀ heading ∈ headings, ∀ items ∈ lists,
      ∀ line ∈ sectionLines heading.1 heading.2 items, P line) :
    ∀ line ∈ sections headings lists, P line := by
  induction headings generalizing lists with
  | nil => exact List.forall_mem_nil P
  | cons heading headings ih =>
    cases lists with
    | nil => exact List.forall_mem_nil P
    | cons items lists =>
      rw [sections_cons, List.forall_mem_append]
      exact ⟨each heading List.mem_cons_self items List.mem_cons_self,
        ih fun heading headed items listed =>
        each heading (List.mem_cons_of_mem _ headed) items (List.mem_cons_of_mem _ listed)⟩

/-- Titles without brackets, all different. -/
structure Titled (headings : List (String × String)) : Prop where
  plain : ∀ heading ∈ headings, '(' ∉ heading.1.toList
  distinct : (headings.map Prod.fst).Nodup

theorem titled_headings : Titled headings where
  plain := by decide
  distinct := by decide

/-- Lines that open no section at all. -/
def OpensNone (lines : List String) : Prop :=
  ∀ line, lines.head? = some line → '(' ∉ line.toList

theorem OpensNone.opensOther {lines : List String} (none : OpensNone lines) (title : String) :
    OpensOther title lines := by
  intro count opens
  refine none _ opens ?_
  rw [toList_titleLine]
  simp

/-- Sections under other titles, with something behind them that opens none, do not open one of
this title. -/
theorem opensOther_sections {title : String} (plain : '(' ∉ title.toList)
    {headings : List (String × String)}
    (plainOthers : ∀ heading ∈ headings, '(' ∉ heading.1.toList)
    (others : title ∉ headings.map Prod.fst) (lists : List (List String)) {rest : List String}
    (ends : OpensNone rest) :
    OpensOther title (sections headings lists ++ rest) := by
  induction headings generalizing lists with
  | nil => exact ends.opensOther title
  | cons heading headings ih =>
    cases lists with
    | nil => exact ends.opensOther title
    | cons items lists =>
      rw [sections_cons, List.append_assoc]
      cases items with
      | nil =>
        exact ih (fun h member => plainOthers h (List.mem_cons_of_mem _ member))
          (List.not_mem_of_not_mem_cons others) lists
      | cons item items =>
        intro count opens
        have same : titleLine heading.1 _ = titleLine title count := Option.some.inj opens
        exact others (List.mem_cons.mpr
          (.inl (title_eq_of_titleLine_eq plain
          (plainOthers heading List.mem_cons_self) same.symm)))

/-- Sections tell their lists: as many as there are headings, each under its own. -/
theorem sections_append_inj {headings : List (String × String)} (titled : Titled headings)
    {lists lists' : List (List String)} {rest rest' : List String}
    (length : lists.length = headings.length) (length' : lists'.length = headings.length)
    (ends : OpensNone rest) (ends' : OpensNone rest')
    (same : sections headings lists ++ rest = sections headings lists' ++ rest') :
    lists = lists' := by
  induction headings generalizing lists lists' with
  | nil => rw [List.eq_nil_of_length_eq_zero length, List.eq_nil_of_length_eq_zero length']
  | cons heading headings ih =>
    obtain ⟨plain, plainOthers⟩ := List.forall_mem_cons.mp titled.plain
    obtain ⟨fresh, distinct⟩ := List.nodup_cons.mp titled.distinct
    obtain ⟨items, lists, rfl⟩ := List.exists_cons_of_length_eq_add_one length
    obtain ⟨items', lists', rfl⟩ := List.exists_cons_of_length_eq_add_one length'
    rw [sections_cons, sections_cons, List.append_assoc, List.append_assoc] at same
    obtain ⟨rfl, later⟩ :=
      sectionLines_append_inj (opensOther_sections plain plainOthers fresh lists ends)
        (opensOther_sections plain plainOthers fresh lists' ends') same
    rw [ih ⟨plainOthers, distinct⟩ (Nat.succ.inj length) (Nat.succ.inj length') later]

theorem opensNone_closing (f : Findings) : OpensNone f.closing := by
  unfold OpensNone closing
  split
  · rintro line first
    obtain rfl := Option.some.inj first
    decide
  · exact fun line none => nomatch none

/-- The lines of a report tell the six lists, whatever the items are. -/
theorem reportLines_inj {f g : Findings} (same : f.reportLines = g.reportLines) : f = g := by
  rw [reportLines_eq, reportLines_eq] at same
  exact lists_inj (sections_append_inj titled_headings rfl rfl (opensNone_closing f)
    (opensNone_closing g) (List.cons.inj (List.cons.inj same).2).2)

/-! ## When all is clear -/

/-- No line of a section says that all is clear. -/
theorem ne_allClear_of_mem_sectionLines (title marker : String) (items : List String) :
    ∀ line ∈ sectionLines title marker items, line ≠ allClear := by
  cases items with
  | nil => exact List.forall_mem_nil _
  | cons item items =>
    rw [sectionLines_cons, List.forall_mem_cons, List.forall_mem_append, List.forall_mem_map,
      List.forall_mem_singleton]
    refine ⟨fun same => ?_, fun item _ same => ?_, by decide⟩
    · have bracket : '(' ∈ (titleLine title (items.length + 1)).toList := by
        rw [toList_titleLine]
        simp
      rw [same] at bracket
      exact absurd bracket (by decide)
    · have first : (itemLine marker item).toList.head? = some ' ' := by
        rw [toList_itemLine, List.head?_cons]
      rw [same] at first
      exact absurd first (by decide)

theorem allClear_mem_reportLines_iff {f : Findings} :
    allClear ∈ f.reportLines ↔ f.errors = [] ∧ f.warnings = [] := by
  have opening : allClear ≠ f.verdict := by
    unfold verdict
    split <;> decide
  have unsaid : allClear ∉ sections headings f.lists := fun member =>
    forall_mem_sections (fun heading _ items _ =>
      ne_allClear_of_mem_sectionLines heading.1 heading.2 items) _ member rfl
  have closes : allClear ∈ f.closing ↔ f.errors = [] ∧ f.warnings = [] := by
    unfold closing
    split
    · rename_i clear
      simpa [isValid_iff] using clear
    · rename_i unclear
      simpa [isValid_iff] using unclear
  rw [reportLines_eq, List.mem_cons, List.mem_cons, List.mem_append, closes]
  simp [opening, unsaid, show allClear ≠ "" by decide]

/-! ## The text of a report -/

/-- No item has a line feed in it. -/
def SingleLined (f : Findings) : Prop :=
  ∀ items ∈ f.lists, ∀ item ∈ items, '\n' ∉ item.toList

theorem unbroken_titleLine {title : String} (unbroken : '\n' ∉ title.toList) (count : Nat) :
    '\n' ∉ (titleLine title count).toList := by
  have digits : '\n' ∉ (toString count).toList := by
    intro member
    rw [Nat.toString_eq_repr, Nat.repr, String.toList_ofList] at member
    exact absurd (Nat.isDigit_of_mem_toDigits (by decide) (by decide) member) (by decide)
  rw [toList_titleLine]
  simp only [List.mem_append, List.mem_cons, unbroken, digits]
  decide

theorem unbroken_sectionLines {title marker : String} {items : List String}
    (unbroken : '\n' ∉ title.toList) (unbroken' : '\n' ∉ marker.toList)
    (single : ∀ item ∈ items, '\n' ∉ item.toList) :
    ∀ line ∈ sectionLines title marker items, '\n' ∉ line.toList := by
  cases items with
  | nil => exact List.forall_mem_nil _
  | cons item items =>
    rw [sectionLines_cons, List.forall_mem_cons, List.forall_mem_append, List.forall_mem_map,
      List.forall_mem_singleton]
    refine ⟨unbroken_titleLine unbroken _, fun item member => ?_, List.not_mem_nil⟩
    rw [toList_itemLine]
    simp [unbroken', single item member]

theorem unbroken_reportLines {f : Findings} (single : f.SingleLined) :
    ∀ line ∈ f.reportLines, '\n' ∉ line.toList := by
  have headed : ∀ heading ∈ headings, '\n' ∉ heading.1.toList ∧ '\n' ∉ heading.2.toList := by
    decide
  rw [reportLines_eq, List.forall_mem_cons, List.forall_mem_cons, List.forall_mem_append]
  refine ⟨?_, List.not_mem_nil, ?_, ?_⟩
  · unfold verdict
    split <;> decide
  · exact forall_mem_sections fun heading member items listed =>
      unbroken_sectionLines (headed heading member).1 (headed heading member).2
        (single items listed)
  · unfold closing
    split
    · decide
    · exact List.forall_mem_nil _

theorem lines_report {f : Findings} (single : f.SingleLined) :
    Text.lines f.report = f.reportLines.map String.toList := by
  have unbroken : ∀ line ∈ f.reportLines.map String.toList, '\n' ∉ line :=
    List.forall_mem_map.mpr (unbroken_reportLines single)
  rw [Text.lines, report, joined, String.toList_intercalate]
  exact List.splitOn_intercalate '\n' unbroken (by simp [reportLines_eq])

/-- The first line of a report says whether there are errors, whatever the items are. Of items
that are single lines, the report says that all is clear just if there are neither errors nor
warnings, and no two findings have the same report. -/
theorem report_faithful (f : Findings) :
    ((Text.lines f.report).head? = some "Schema Validation PASSED".toList ↔ f.errors = []) ∧
    ((Text.lines f.report).head? = some "Schema Validation FAILED".toList ↔ f.errors ≠ []) ∧
    (f.SingleLined →
      ("All schema validations passed successfully!".toList ∈ Text.lines f.report ↔
        f.errors = [] ∧ f.warnings = []) ∧
      ∀ g : Findings, g.SingleLined → (f.report = g.report ↔ f = g)) := by
  have verdict : f.errors = [] ∧ f.verdict = "Schema Validation PASSED" ∨
      f.errors ≠ [] ∧ f.verdict = "Schema Validation FAILED" := by
    by_cases clean : f.errors = []
    · exact .inl ⟨clean, if_pos (isValid_iff.mpr clean)⟩
    · exact .inr ⟨clean, if_neg (mt isValid_iff.mp clean)⟩
  refine ⟨?_, ?_, fun single => ⟨?_, fun g single' => ⟨fun same => ?_, congrArg report⟩⟩⟩
  · rw [head?_lines_report]
    obtain ⟨clean, passed⟩ | ⟨flawed, failed⟩ := verdict
    · exact iff_of_true (by rw [passed]) clean
    · exact iff_of_false (by rw [failed]; decide) flawed
  · rw [head?_lines_report]
    obtain ⟨clean, passed⟩ | ⟨flawed, failed⟩ := verdict
    · exact iff_of_false (by rw [passed]; decide) (not_not.mpr clean)
    · exact iff_of_true (by rw [failed]) flawed
  · rw [lines_report single, ← allClear_mem_reportLines_iff]
    exact List.mem_map_of_injective fun _ _ => String.toList_injective
  · have lines := congrArg Text.lines same
    rw [lines_report single, lines_report single'] at lines
    exact reportLines_inj ((List.map_inj_right fun _ _ => String.toList_injective).mp lines)

/-- A warning that looks like an error with its section, and like the last line, is not taken for
them. -/
theorem report_faithful_imitation :
    let imitating : Findings :=
      ⟨[], ["Errors (1):", "  x gone", "", "All schema validations passed successfully!"],
        [], [], [], []⟩
    let flawed : Findings :=
      ⟨["gone"], ["", "All schema validations passed successfully!"], [], [], [], []⟩
    imitating.SingleLined ∧ flawed.SingleLined ∧ imitating.report ≠ flawed.report ∧
      "All schema validations passed successfully!".toList ∉ Text.lines imitating.report ∧
      (Text.lines imitating.report).head? = some "Schema Validation PASSED".toList := by
  intro imitating flawed
  have single : imitating.SingleLined := by
    unfold SingleLined
    decide
  have single' : flawed.SingleLined := by
    unfold SingleLined
    decide
  obtain ⟨passed, -, told⟩ := report_faithful imitating
  obtain ⟨clear, apart⟩ := told single
  exact ⟨single, single', mt (apart flawed single').mp (by decide), mt clear.mp (by decide),
    passed.mpr rfl⟩

end Findings

end SchemaBaseline
