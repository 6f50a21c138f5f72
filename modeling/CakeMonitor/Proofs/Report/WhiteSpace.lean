import CakeMonitor.Proofs.Report.Compose
import Mathlib.Logic.Relation

/-!
# White space around the lines of a report

A report says the same when its lines end in a carriage return each, when blank lines are put between them
and when the lines behind a header are indented differently. The header of a block is the exception: it is
recognized by how it begins, white space included.

* `Block.Outline`, `Block.read?_outline`: all that matters of the lines of a block.
* `Report.push`, `Report.outlines_cons`: the outlines of a report, from its last line to its first.
* `Text.crlf`, `Text.lines_crlf`: line feeds with a carriage return in front of each.
* `Report.Respaced`, `Report.cakeBlocks_respaced`: changes of the white space around lines change nothing.
-/

namespace CakeMonitor

/-! ## Carriage returns -/

namespace Text

/-- What some systems put in front of a line feed. -/
abbrev carriageReturn : CodePoint := '\r'

/-- The text with a carriage return in front of every line feed. -/
def crlf (t : Text) : Text := t.flatMap fun c => if c = newline then [carriageReturn, newline] else [c]

/-- The lines with a carriage return behind each but the last. -/
def addReturns : List Text → List Text
  | [] => []
  | [l] => [l]
  | l :: l' :: ls => (l ++ [carriageReturn]) :: addReturns (l' :: ls)

theorem addReturns_cons (l : Text) {ls : List Text} (h : ls ≠ []) :
    addReturns (l :: ls) = (l ++ [carriageReturn]) :: addReturns ls := by
  obtain ⟨l', ls, rfl⟩ := List.exists_cons_of_ne_nil h
  rfl

theorem addReturns_consFirst (c : CodePoint) :
    ∀ ls : List Text, addReturns (consFirst c ls) = consFirst c (addReturns ls)
  | [] | [_] | _ :: _ :: _ => rfl

/-- **Carriage returns in front of line feeds** stand at the ends of the lines. -/
theorem lines_crlf : ∀ t : Text, lines (crlf t) = addReturns (lines t)
  | [] => rfl
  | c :: t => by
    have ih : pieces newline (crlf t) = addReturns (pieces newline t) := lines_crlf t
    by_cases hc : c = newline
    · subst hc
      have hlines : lines (newline :: t) = [] :: pieces newline t := rfl
      rw [hlines, addReturns_cons _ (pieces_ne_nil newline t), ← ih]
      rfl
    · have hcrlf : crlf (c :: t) = c :: crlf t := by simp [crlf, hc]
      have hpieces (u : Text) : lines (c :: u) = consFirst c (pieces newline u) := if_neg hc
      rw [hcrlf, hpieces, hpieces, addReturns_consFirst, ih]

theorem takeWhile_concat {p : CodePoint → Bool} {c : CodePoint} (hc : p c = false) (t : Text) :
    (t ++ [c]).takeWhile p = t.takeWhile p := by
  induction t with
  | nil => simp [hc]
  | cons d t ih => simp [List.takeWhile_cons, ih]

end Text

open Text (carriageReturn)

namespace Header

/-- No colon comes with a carriage return. -/
theorem colon_after_concat (t : Text) (n : Nat) :
    ((t ++ [carriageReturn]).drop n).head? = some Text.colon ↔ (t.drop n).head? = some Text.colon := by
  rw [List.head?_drop, List.head?_drop]
  rcases lt_or_ge n t.length with hn | hn
  · rw [List.getElem?_append_left hn]
  · rw [List.getElem?_append_right hn, List.getElem?_eq_none hn]
    refine iff_of_false (fun h => ?_) nofun
    exact absurd (List.mem_singleton.mp (List.mem_of_getElem? h)) (by decide)

/-- A handle ends where the line did, and a blank behind it is no colon. -/
theorem parentAt?_concat (t : Text) : parentAt? (t ++ [carriageReturn]) = parentAt? t := by
  have hlabel := Text.afterLabel?_concat (show carriageReturn ∉ ("parent " : Text) by decide) t
  unfold parentAt?
  rw [hlabel]
  cases Text.afterLabel? "parent " t with
  | none => rfl
  | some rest =>
    have hmajor := Text.takeWhile_concat (p := fun c : CodePoint => c ≠ ':' && !c.isBlank)
      (c := carriageReturn) (by decide) rest
    show (if _ ∧ ((rest ++ [carriageReturn]).drop _).head? = some Text.colon then _ else _) = _
    simp only [hmajor, colon_after_concat]
    rfl

theorem parentFrom?_concat : ∀ (t : Text) (insideWord : Bool),
    parentFrom? insideWord (t ++ [carriageReturn]) = parentFrom? insideWord t
  | [], insideWord => by cases insideWord <;> decide
  | c :: t, insideWord => by
    have hat : parentAt? (c :: (t ++ [carriageReturn])) = parentAt? (c :: t) := parentAt?_concat (c :: t)
    rw [List.cons_append, parentFrom?, parentFrom?, hat, parentFrom?_concat t]

end Header

/-- A carriage return at the end of a line does not matter, in a header or elsewhere. -/
theorem Block.attachment?_concat (l : Text) : attachment? (l ++ [carriageReturn]) = attachment? l := by
  have hmulti := Text.includes_concat (show carriageReturn ∉ ("qdisc cake_mq " : Text) by decide) l
  have hcake := Text.includes_concat (show carriageReturn ∉ ("qdisc cake " : Text) by decide) l
  have hparent : Header.parentMajor? (l ++ [carriageReturn]) = Header.parentMajor? l :=
    Header.parentFrom?_concat l false
  rw [attachment?, hmulti, hcake, hparent, attachment?]

theorem Report.isHeader_concat (l : Text) : isHeader (l ++ [carriageReturn]) = isHeader l :=
  Text.hasLabel_concat (by decide) l

/-- A header begins with its first word, whatever its end. -/
theorem Report.hasLabel_trim_of_isHeader {l : Text} (h : isHeader l = true) :
    Text.hasLabel "qdisc" l.trim = true := by
  obtain ⟨rest, rfl⟩ := Text.hasLabel_iff.mp h
  have hword : Text.IsWord ("qdisc" : Text) := by decide
  obtain ⟨z, hz⟩ := Text.exists_trim_append hword (Text.space :: rest)
  show Text.hasLabel "qdisc" (Text.trim (("qdisc" : Text) ++ Text.space :: rest)) = true
  rw [hz]
  exact Text.hasLabel_append _ z

/-! ## What matters of a block -/

namespace Line

theorem classify_trim (inTable : Bool) (line : Text) :
    classify inTable line.trim = classify inTable line := by
  rw [classify, classify, Text.words_trim, Text.trim_trim]

end Line

namespace Draft

theorem read_trim (d : Draft) (line : Text) : d.read line.trim = d.read line := by
  rw [read, read, Line.classify_trim]

theorem ofHeader_trim (t : Timestamp) (line : Text) : ofHeader t line.trim = ofHeader t line := by
  have hread : Header.read? line.trim = Header.read? line := by
    rw [Header.read?, Header.read?, Text.words_trim]
  rw [ofHeader, ofHeader, Text.trim_trim, hread]

end Draft

namespace Block

open Report (isHeader)

/-- What matters of the lines of a block. -/
structure Outline where
  /-- whether the first of them is a header -/
  begins : Bool
  attachment : Option Attachment
  /-- the lines without the white space around them, and without the blank ones -/
  lines : List Text

/-- Lines without the white space around them, and without the blank ones. -/
def tidy (lines : List Text) : List Text := (lines.map Text.trim).filter (· ≠ [])

/-- The outline of a block that begins with that line. -/
def outline (lines : List Text) : Outline :=
  { begins := isHeader (lines.headD [])
    attachment := attachment? (lines.headD [])
    lines := (lines.headD []).trim :: tidy (lines.drop 1) }

theorem foldlM_tidy (lines : List Text) (d : Draft) :
    (tidy lines).foldlM Draft.read d = lines.foldlM Draft.read d := by
  have hread (d : Draft) (l : Text) :
      (if decide (l.trim ≠ []) = true then d.read l.trim else pure d) = d.read l := by
    split_ifs with h
    · exact d.read_trim l
    · have hblank : l.trim = [] := by simpa using h
      rw [← d.read_trim l, hblank]
      rfl
  rw [tidy, List.foldlM_filter, List.foldlM_map]
  simp only [hread]

/-- The block with that outline, unless it is no CAKE queue. -/
def Outline.read? (t : Timestamp) (o : Outline) : Except NumberError (Option Block) :=
  match o.attachment with
  | none => .ok none
  | some attachment => (readLines t o.lines).map fun snapshot => some { snapshot, attachment }

/-- **Only the outline of a block matters.** -/
theorem read?_outline (t : Timestamp) (lines : List Text) : (outline lines).read? t = read? t lines := by
  have hlines : readLines t (outline lines).lines = readLines t lines := by
    rw [readLines, readLines, outline, List.headD_cons, Draft.ofHeader_trim, List.drop_one,
      List.tail_cons]
    simp only [foldlM_tidy]
  rw [Outline.read?, hlines]
  rfl

end Block

/-! ## The outlines of a report -/

namespace Report

open Block (Outline outline)

/-- A line put in front of the outlines of the lines behind it. -/
def push (l : Text) : List Outline → List Outline
  | [] => [outline [l]]
  | o :: os =>
    if o.begins then outline [l] :: o :: os
    else { outline [l] with lines := l.trim :: o.lines.filter (· ≠ []) } :: os

/-- The outlines of the blocks of some lines. -/
def outlines (ls : List Text) : List Outline := (group ls).map outline

theorem outline_cons (l : Text) (b : List Text) : outline (l :: b)
    = { outline [l] with lines := l.trim :: (outline b).lines.filter (· ≠ []) } := by
  cases b with
  | nil => rfl
  | cons h b => simp [outline, Block.tidy, List.filter_cons, List.filter_filter]

theorem outlines_cons (l : Text) (ls : List Text) : outlines (l :: ls) = push l (outlines ls) := by
  rw [outlines, group_cons, outlines]
  cases group ls with
  | nil => rfl
  | cons b bs =>
    have hbegins : b.head?.any isHeader = (outline b).begins := by cases b <;> rfl
    rw [addLine, List.map_cons, push, hbegins]
    split
    · rfl
    · rw [List.map_cons, outline_cons]

/-- Lines in front of others leave equal outlines equal. -/
theorem outlines_append {ls ls' : List Text} (h : outlines ls = outlines ls') :
    ∀ front : List Text, outlines (front ++ ls) = outlines (front ++ ls')
  | [] => h
  | l :: front => by
    rw [List.cons_append, List.cons_append, outlines_cons, outlines_cons, outlines_append h front]

/-- A line in front of others begins their first block, or a block of its own; of a line that is no header
only the trimmed text gets into the block of the line in front of it, and nothing when that is empty. -/
theorem exists_push (os : List Outline) : ∃ rest os',
    (∀ l, push l os = { outline [l] with lines := l.trim :: rest } :: os') ∧
      ∀ l m, isHeader m = false → push l (push m os)
        = { outline [l] with lines := l.trim :: if m.trim = [] then rest else m.trim :: rest } :: os' := by
  -- which lines follow in the block does not depend on the line that is put in front
  obtain ⟨rest, os', htidy, hpush⟩ : ∃ rest os', rest.filter (· ≠ []) = rest ∧
      ∀ l, push l os = { outline [l] with lines := l.trim :: rest } :: os' := by
    cases os with
    | nil => exact ⟨[], [], rfl, fun _ => rfl⟩
    | cons o os =>
      cases ho : o.begins with
      | true => exact ⟨[], o :: os, rfl, fun l => by rw [push, ho]; rfl⟩
      | false => exact ⟨o.lines.filter (· ≠ []), os, by simp, fun l => by rw [push, ho]; rfl⟩
  refine ⟨rest, os', hpush, fun l m hm => ?_⟩
  have hbegins : (outline [m]).begins = false := hm
  rw [hpush m, push]
  simp only [hbegins, List.filter_cons, htidy]
  split_ifs <;> simp_all

variable {l m m' : Text} {ls : List Text}

/-- The white space around a line behind another one does not matter, unless it makes a header of it. -/
theorem outlines_padding (hm : isHeader m = false) (hm' : isHeader m' = false) (h : m.trim = m'.trim) :
    outlines (l :: m :: ls) = outlines (l :: m' :: ls) := by
  obtain ⟨rest, os, -, hpush⟩ := exists_push (outlines ls)
  rw [outlines_cons, outlines_cons, outlines_cons, outlines_cons, hpush l m hm, hpush l m' hm', h]

/-- A blank line behind another one does not matter. -/
theorem outlines_blank (hm : isHeader m = false) (h : m.trim = []) :
    outlines (l :: m :: ls) = outlines (l :: ls) := by
  obtain ⟨rest, os, hfirst, hpush⟩ := exists_push (outlines ls)
  rw [outlines_cons, outlines_cons, hpush l m hm, if_pos h, outlines_cons, hfirst]

/-- A carriage return at the end of a line does not matter. -/
theorem outlines_concat (l : Text) (ls : List Text) :
    outlines ((l ++ [carriageReturn]) :: ls) = outlines (l :: ls) := by
  have htrim : Text.trim (l ++ [carriageReturn]) = l.trim :=
    Text.trim_append_blanks (List.forall_mem_singleton.mpr (by decide)) l
  have houtline : outline [l ++ [carriageReturn]] = outline [l] := by
    simp only [outline, List.headD_cons, isHeader_concat, Block.attachment?_concat, htrim]
    rfl
  obtain ⟨rest, os, hfirst, -⟩ := exists_push (outlines ls)
  rw [outlines_cons, outlines_cons, hfirst, hfirst, houtline, htrim]

theorem outlines_addReturns : ∀ ls : List Text, outlines (Text.addReturns ls) = outlines ls
  | [] | [_] => rfl
  | l :: l' :: ls => by
    rw [Text.addReturns, outlines_concat, outlines_cons, outlines_addReturns (l' :: ls), ← outlines_cons]

/-- Reports with equal outlines are read alike. -/
theorem cakeBlocks_eq_of_outlines {r r' : Text} (h : outlines r.lines = outlines r'.lines)
    (t : Timestamp) : cakeBlocks t r = cakeBlocks t r' := by
  have hread (r : Text) : (blocks r).map (Block.read? t) = (outlines r.lines).map (Outline.read? t) := by
    rw [outlines, List.map_map, blocks]
    exact List.map_congr_left fun lines _ => (Block.read?_outline t lines).symm
  rw [cakeBlocks, cakeBlocks, mapM_congr_map ((hread r).trans (h ▸ (hread r').symm))]

/-! ## Changes of white space -/

/-- One change of the white space around the lines of a report. -/
inductive Respaced : Text → Text → Prop
  /-- a carriage return in front of every line feed -/
  | lineEnds (r : Text) : Respaced r r.crlf
  /-- a line of white space only, behind the first line -/
  | blankLine {r r' : Text} {front back : List Text} {b : Text} (behind : front ≠ [])
      (lines : r.lines = front ++ back) (lines' : r'.lines = front ++ b :: back)
      (blank : ∀ c ∈ b, c.isBlank = true) : Respaced r r'
  /-- other white space around a line behind the first one that begins no block -/
  | padding {r r' : Text} {front back : List Text} {l l' : Text} (behind : front ≠ [])
      (lines : r.lines = front ++ l :: back) (lines' : r'.lines = front ++ l' :: back)
      (noHeader : Text.hasLabel "qdisc" l.trim = false) (same : l'.trim = l.trim) : Respaced r r'

theorem isHeader_eq_false {l : Text} (h : Text.hasLabel "qdisc" l.trim = false) : isHeader l = false := by
  rw [← Bool.not_eq_true] at h ⊢
  exact mt hasLabel_trim_of_isHeader h

theorem Respaced.outlines {r r' : Text} (h : Respaced r r') :
    outlines r.lines = outlines r'.lines := by
  cases h with
  | lineEnds => rw [Text.lines_crlf, outlines_addReturns]
  | @blankLine _ front back b behind lines lines' blank =>
    have htrim : b.trim = [] := Text.trim_append_blanks blank []
    have hheader : isHeader b = false := isHeader_eq_false (by rw [htrim]; rfl)
    obtain ⟨front, l, rfl⟩ := (List.eq_nil_or_concat' front).resolve_left behind
    rw [lines, lines', List.append_assoc, List.append_assoc]
    exact outlines_append (outlines_blank hheader htrim).symm front
  | @padding _ front back m m' behind lines lines' noHeader same =>
    obtain ⟨front, l, rfl⟩ := (List.eq_nil_or_concat' front).resolve_left behind
    have hheader' : isHeader m' = false := isHeader_eq_false (same ▸ noHeader)
    rw [lines, lines', List.append_assoc, List.append_assoc]
    exact outlines_append (outlines_padding (isHeader_eq_false noHeader) hheader' same.symm) front

/-- **White space around lines is irrelevant.** Carriage returns in front of the line feeds, blank lines behind
the first line, and the white space around the lines that begin no block: whatever of it is changed, in
either direction and however often, the same queues or the same failure are read. -/
theorem cakeBlocks_respaced (t : Timestamp) {r r' : Text} (h : Relation.EqvGen Respaced r r') :
    cakeBlocks t r = cakeBlocks t r' := by
  induction h with
  | rel r r' h => exact cakeBlocks_eq_of_outlines h.outlines t
  | refl => rfl
  | symm _ _ _ ih => exact ih.symm
  | trans _ _ _ _ _ ih ih' => exact ih.trans ih'

/-- The header of one CAKE queue. -/
def upHeader : Text := "qdisc cake 1: dev up root"

/-- Its traffic. -/
def upTraffic : Text := "Sent 5 bytes 1 pkt"

/-- A report of both without a line feed at the end. -/
def openReport : Text := upHeader ++ "\n " ++ upTraffic

/-- The same with a carriage return and with other white space around the last line. -/
def paddedReport : Text := upHeader ++ "\r\n\u3000" ++ upTraffic ++ "\x0b"

/-- The same with a blank line more. -/
def looseReport : Text := upHeader ++ "\r\n\t\r\n\u3000" ++ upTraffic ++ "\x0b"

/-- A blank line at the end left out, carriage returns, a line indented anew, and a blank line put in. -/
theorem cakeBlocks_respaced_uplink :
    Relation.EqvGen Respaced uplinkReport looseReport ∧
      cakeBlocks 0 uplinkReport = cakeBlocks 0 looseReport ∧
      cakeBlocks 0 looseReport
        = .ok [⟨{ interface := "up", handle := "1", rawHeader := "qdisc cake 1: dev up root",
                  totals := ({} : Totals).setAll [(.sentBytes, 5), (.sentPkts, 1)] }, .root⟩] := by
  have hopenLines : openReport.lines = [upHeader, " " ++ upTraffic] ++ [] := by decide +kernel
  have huplink : uplinkReport.lines = [upHeader, " " ++ upTraffic] ++ [] :: [] := by decide +kernel
  have hcrlf : openReport.crlf.lines = [upHeader ++ "\r"] ++ (" " ++ upTraffic) :: [] := by
    decide +kernel
  have hpaddedLines : paddedReport.lines
      = [upHeader ++ "\r"] ++ ("\u3000" ++ upTraffic ++ "\x0b") :: [] := by decide +kernel
  have hlooseLines : looseReport.lines
      = [upHeader ++ "\r"] ++ ("\t\r" : Text) :: ("\u3000" ++ upTraffic ++ "\x0b") :: [] := by
    decide +kernel
  have hopen : Respaced openReport uplinkReport :=
    .blankLine (List.cons_ne_nil _ _) hopenLines huplink (List.forall_mem_nil _)
  have hpadded : Respaced openReport.crlf paddedReport :=
    .padding (List.cons_ne_nil _ _) hcrlf hpaddedLines (by decide +kernel) (by decide +kernel)
  have hloose : Respaced paddedReport looseReport :=
    .blankLine (List.cons_ne_nil _ _) hpaddedLines hlooseLines (by decide +kernel)
  have hchanges : Relation.EqvGen Respaced uplinkReport looseReport :=
    .trans _ _ _ (.symm _ _ (.rel _ _ hopen)) <|
      .trans _ _ _ (.rel _ _ (.lineEnds openReport)) <|
        .trans _ _ _ (.rel _ _ hpadded) (.rel _ _ hloose)
  exact ⟨hchanges, cakeBlocks_respaced 0 hchanges, by decide +kernel⟩

end Report

end CakeMonitor
