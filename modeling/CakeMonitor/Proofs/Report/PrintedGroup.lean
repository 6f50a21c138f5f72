import CakeMonitor.Proofs.Report.RoundTrip

/-!
# Printed groups

A queue that spreads packets over hardware queues is printed like any other, and each queue under it
names it in its header: `parent`, the handle, a colon and a number. The parent's handle and the name
that its children have for it are read in different ways, but both give the handle.

* `Place`: a device and the handle of a queue on it.
* `ParentQueue`, `ChildQueue`: what is printed of such a queue, and of a CAKE queue under it.
* `Header.parentMajor?_append`: the first parent in a header is found behind whatever stands in front.
* `ParentQueue.parentKey?_block`, `ChildQueue.childKey?_block`: the blocks of both are read under one key.
* `ChildQueue.readLines_ofPrinted`: a child that is printed like a root queue says what that says.
-/

namespace CakeMonitor

open Text (space colon newline spread IsWord Apart)

/-! ## The first parent of a header -/

namespace Header

theorem append_space_cases {w x r t : Text} (hw : space ∉ w) (h : x ++ space :: t = w ++ space :: r) :
    (x = w ∧ t = r) ∨ ∃ y, x = w ++ space :: y ∧ r = y ++ space :: t := by
  have hcut : Text.cut? space (x ++ space :: t) = some (w, r) := by
    rw [h]
    exact Text.cut?_append hw r
  by_cases hx : space ∈ x
  · obtain ⟨x', y, rfl, hx'⟩ := List.eq_append_cons_of_mem hx
    rw [List.append_assoc, List.cons_append, Text.cut?_append hx', Option.some.injEq,
      Prod.mk.injEq] at hcut
    obtain ⟨rfl, rfl⟩ := hcut
    exact Or.inr ⟨y, rfl, rfl⟩
  · rw [Text.cut?_append hx, Option.some.injEq, Prod.mk.injEq] at hcut
    exact Or.inl hcut

theorem parentFrom?_cons {inside : Bool} {c : CodePoint} {t : Text} (h : parentAt? (c :: t) = none) :
    parentFrom? inside (c :: t) = parentFrom? c.isWordPart t := by
  have hnone : (if inside = true then none else parentAt? (c :: t)) = none := by
    rw [h, ite_self]
  rw [parentFrom?, hnone]

theorem parentFrom?_append_space {t : Text} : ∀ {a : Text} {inside : Bool},
    (∀ x c y, a = x ++ c :: y → parentAt? (c :: y ++ space :: t) = none) →
      parentFrom? inside (a ++ space :: t) = parentFrom? false t
  | [], inside, _ => by
    have hspace : parentAt? (space :: t) = none := by
      have hlabel : Text.afterLabel? "parent " (space :: t) = none :=
        Text.afterLabel?_of_head_ne (by decide) _ _
      rw [parentAt?, hlabel]
      rfl
    have hblank : space.isWordPart = false := by decide +kernel
    rw [List.nil_append, parentFrom?_cons hspace, hblank]
  | c :: a, inside, h => by
    have hnone : parentAt? (c :: (a ++ space :: t)) = none := h [] c a rfl
    rw [List.cons_append, parentFrom?_cons hnone]
    exact parentFrom?_append_space fun x d y ha => h (c :: x) d y (by rw [ha]; rfl)

/-- **The first parent of a header** stands behind a text if no two words say one, up to the first word
behind that text. -/
theorem parentMajor?_append {a t w : Text} {rest : List Text} (ht : t.words = w :: rest)
    (h : (a.words ++ [w]).IsChain NoParent) : parentMajor? (a ++ space :: t) = parentMajor? t := by
  refine parentFrom?_append_space fun x c y ha => ?_
  rw [Option.eq_none_iff_forall_ne_some]
  intro major hm
  obtain ⟨b, hb, hmajor⟩ := parentAt?_eq_some hm
  obtain ⟨us, u, hu⟩ := Text.words_append_solid (x := "parent") (by decide) x
  obtain ⟨v, vs, hv⟩ := Text.words_solid_append (isWord_major hmajor) b
  rw [List.append_assoc, List.singleton_append] at hv
  -- the two words that would say a parent are neighbours in front of `t` or at its first word
  have hadj : ∃ ws, a.words ++ [w]
      = us ++ (u ++ ("parent" : Text)) :: (major ++ [colon] ++ v) :: ws := by
    rcases append_space_cases (by decide) hb with ⟨hx, rfl⟩ | ⟨y', hx, hr⟩
    · rw [ht] at hv
      rw [ha, hx, hu, (List.cons.inj hv).1]
      exact ⟨[], by simp⟩
    · rw [hr, Text.words_append_blank Text.isBlank_space, ht] at hv
      rw [ha, hx, ← List.append_assoc, Text.words_append_blank Text.isBlank_space, hu]
      cases hy : Text.words y' with
      | nil =>
        rw [hy] at hv
        exact ⟨[], by rw [(List.cons.inj hv).1]; simp⟩
      | cons v' vs' =>
        rw [hy] at hv
        exact ⟨vs' ++ [w], by rw [(List.cons.inj hv).1]; simp⟩
  obtain ⟨ws, hadj⟩ := hadj
  rw [hadj] at h
  rcases (List.isChain_append.mp h).2.1.rel with hnone | hnone
  · exact ne_append_of_beforeSuffix?_eq_none hnone u rfl
  · exact hnone (by simp)

theorem parentAt?_append {major : Text} (h : IsWord major) (hcolon : colon ∉ major) (b : Text) :
    parentAt? (("parent" : Text) ++ space :: (major ++ colon :: b)) = some major := by
  have hlabel : Text.afterLabel? "parent " (("parent" : Text) ++ space :: (major ++ colon :: b))
      = some (major ++ colon :: b) := Text.afterLabel?_append "parent " _
  have hall : ∀ c ∈ major, (c ≠ ':' && !c.isBlank) = true := by
    intro c hc
    have hne : c ≠ colon := fun e => hcolon (e ▸ hc)
    simp [hne, h.solid c hc]
  have htake : (major ++ colon :: b).takeWhile (fun c : CodePoint => c ≠ ':' && !c.isBlank)
      = major := by
    rw [List.takeWhile_append_of_pos hall]
    simp
  simp only [parentAt?, hlabel, htake, Option.bind_eq_bind, Option.bind_some, List.drop_left,
    List.head?_cons]
  exact if_pos ⟨h.ne_nil, trivial⟩

theorem parentMajor?_of_parentAt? {t major : Text} (h : parentAt? t = some major) :
    parentMajor? t = some major := by
  cases t with
  | nil => cases h
  | cons c t =>
    rw [parentMajor?, parentFrom?, if_neg Bool.false_ne_true, h]

end Header

/-! ## Headers -/

/-- The words of all headers: the discipline, the handle of the queue and its device. -/
def headerFront (kind handle device : Text) : Text :=
  Text.join [space] ["qdisc", kind, handle ++ [colon], "dev", device]

theorem isWord_append_colon {handle : Text} (h : IsWord handle) (rest : Text)
    (hrest : ∀ c ∈ rest, c.isBlank = false) : IsWord (handle ++ colon :: rest) :=
  ⟨by simp, List.forall_mem_append.mpr ⟨h.solid, List.forall_mem_cons.mpr ⟨by decide, hrest⟩⟩⟩

section Front

variable {kind handle device : Text} (hkind : IsWord kind) (hhandle : IsWord handle)
  (hdevice : IsWord device)
include hkind hhandle hdevice

theorem words_headerFront : (headerFront kind handle device).words
    = ([("qdisc" : Text), kind, handle ++ [colon], ("dev" : Text), device] : List Text) := by
  have hcolon : IsWord (handle ++ [colon]) := isWord_append_colon hhandle [] (List.forall_mem_nil _)
  have hall : ∀ w ∈ [kind, handle ++ [colon], "dev", device], IsWord w := by
    simp only [List.forall_mem_cons]
    exact ⟨hkind, hcolon, by decide, hdevice, List.forall_mem_nil _⟩
  rw [headerFront, Text.join_eq_spread, Text.words_spread (by decide) (Text.apart_single hall),
    Text.map_snd_single]

theorem newline_not_mem_headerFront : newline ∉ headerFront kind handle device := by
  have hcolon : IsWord (handle ++ [colon]) := isWord_append_colon hhandle [] (List.forall_mem_nil _)
  rw [headerFront, Text.join_eq_spread]
  refine Text.newline_not_mem_spread ?_
  simp only [List.map_cons, List.map_nil, List.forall_mem_cons]
  exact ⟨by decide, hkind, hcolon, by decide, hdevice, List.forall_mem_nil _⟩

/-- What a header says. -/
theorem read?_headerFront (t : Text) : Header.read? (headerFront kind handle device ++ space :: t)
    = some ⟨(handle ++ [colon]).trimEndBy (· = colon), device,
        .text .direction "egress" :: Header.optionChanges t.words⟩ := by
  rw [Header.read?, Text.words_append_blank Text.isBlank_space,
    words_headerFront hkind hhandle hdevice]
  rfl

end Front

theorem trimEndBy_colon {handle : Text} (h : ∀ c ∈ handle.getLast?, c ≠ colon) :
    (handle ++ [colon]).trimEndBy (· = colon) = handle :=
  Text.trimEndBy_append (by decide) fun c hc => decide_eq_false (h c hc)

/-! ## What a header decides about a snapshot -/

/-- What of a snapshot the header of its block says. -/
def identity (s : Snapshot) : Text × Text × Text := (s.interface, s.handle, s.rawHeader)

theorem Draft.identity_add {d d' : Draft} {k : Line.Kind} (h : d.add k = .ok d') :
    identity d'.snapshot = identity d.snapshot := by
  cases k with
  | sent line =>
    obtain ⟨changes, -, rfl⟩ := map_eq_ok.mp h
    rfl
  | backlog line =>
    obtain ⟨backlog, -, rfl⟩ := map_eq_ok.mp h
    cases backlog <;> rfl
  | memory line =>
    obtain rfl := Except.ok.inj h
    cases Line.memory? line <;> rfl
  | _ =>
    obtain rfl := Except.ok.inj h
    rfl

theorem Draft.identity_foldlM {lines : List Text} {d d' : Draft}
    (h : lines.foldlM Draft.read d = .ok d') : identity d'.snapshot = identity d.snapshot :=
  foldlM_preserves (P := fun e => identity e.snapshot = identity d.snapshot)
    (fun _ _ _ hread hd => (identity_add hread).trans hd) h rfl

theorem Block.identity_readLines {t : Timestamp} {line : Text} {body : List Text} {s : Snapshot}
    (h : Block.readLines t (line :: body) = .ok s) :
    identity s = identity (Draft.ofHeader t line).snapshot := by
  rw [Block.readLines] at h
  obtain ⟨d, hd, h⟩ := bind_eq_ok.mp h
  obtain ⟨tins, -, rfl⟩ := map_eq_ok.mp h
  exact Draft.identity_foldlM hd

theorem Draft.identity_ofHeader {t : Timestamp} {line : Text} {h : Header}
    (hread : Header.read? line = some h) :
    identity (Draft.ofHeader t line).snapshot = (h.interface, h.handle, line.trim) := by
  rw [Draft.ofHeader, hread]
  rfl

/-! ## Parents and children -/

/-- A device and the handle of a queue on it, as they are printed. -/
structure Place where
  device : Text
  handle : Text
  isWord_device : IsWord device
  isWord_handle : IsWord handle
  noColon : colon ∉ handle

/-- Device and handle, by which parent and children find each other. -/
def Place.key (p : Place) : MultiQueue.Key := (p.device, p.handle)

/-- What is printed of a queue that spreads packets over hardware queues, behind its place. -/
structure ParentQueue where
  /-- what stands behind `root` in the header -/
  rest : Text := []
  body : List Text := []
  inside : ∀ l ∈ body, Report.isHeader l = false
  oneLine : ∀ l ∈ rest :: body, newline ∉ l

namespace ParentQueue

variable (q : ParentQueue) (p : Place)

def header : Text := headerFront "cake_mq" p.handle p.device ++ space :: (("root" : Text) ++ q.rest)

def lines : List Text := q.header p :: q.body

theorem isParagraph_lines : Report.IsParagraph (q.lines p) := .intro rfl q.inside

theorem newline_not_mem_lines : ∀ l ∈ q.lines p, newline ∉ l := by
  obtain ⟨hrest, hbody⟩ := List.forall_mem_cons.mp q.oneLine
  refine List.forall_mem_cons.mpr ⟨?_, hbody⟩
  rw [header, List.mem_append, List.mem_cons, List.mem_append]
  simp only [not_or]
  exact ⟨newline_not_mem_headerFront (by decide) p.isWord_handle p.isWord_device, by decide, by decide,
    hrest⟩

theorem attachment?_header : Block.attachment? (q.header p) = some .multiQueue := by
  have hincludes : Text.includes "qdisc cake_mq " (q.header p) = true :=
    Text.includes_iff.mpr ⟨[], Text.join [space] [p.handle ++ [colon], "dev", p.device]
      ++ space :: (("root" : Text) ++ q.rest), rfl⟩
  rw [Block.attachment?, hincludes, if_pos rfl]

theorem identity_readLines {t : Timestamp} {s : Snapshot}
    (h : Block.readLines t (q.lines p) = .ok s) :
    identity s = (p.device, p.handle, (q.header p).trim) := by
  have hkind : IsWord "cake_mq" := by decide
  have hread := read?_headerFront hkind p.isWord_handle p.isWord_device (("root" : Text) ++ q.rest)
  rw [trimEndBy_colon fun c hc e => p.noColon (e ▸ List.mem_of_getLast? hc)] at hread
  exact (Block.identity_readLines h).trans (Draft.identity_ofHeader hread)

/-- **The block of a parent** is its snapshot with the place of a multi-queue. -/
theorem read?_lines (t : Timestamp) : Block.read? t (q.lines p)
    = (Block.readLines t (q.lines p)).map fun s => some ⟨s, .multiQueue⟩ := by
  have hplace : Block.attachment? ((q.lines p).headD []) = some .multiQueue := q.attachment?_header p
  rw [Block.read?, hplace]

/-- It has the key of its place. -/
theorem parentKey?_block {t : Timestamp} {s : Snapshot} (h : Block.readLines t (q.lines p) = .ok s) :
    MultiQueue.parentKey? ⟨s, .multiQueue⟩ = some p.key := by
  have hidentity := q.identity_readLines p h
  rw [identity, Prod.mk.injEq, Prod.mk.injEq] at hidentity
  obtain ⟨hinterface, hhandle, -⟩ := hidentity
  show some (s.interface, s.handle) = _
  rw [hinterface, hhandle]
  rfl

end ParentQueue

/-- What is printed of a CAKE queue under another one. Its options may be any words that do not announce
a multi-queue, and the lines behind its header any that are no headers. -/
structure ChildQueue where
  handle : Text
  /-- what stands behind the colon of the parent -/
  minor : Text
  options : List Text := []
  /-- the number of spaces behind the header -/
  trail : Nat := 0
  body : List Text := []
  isWord_handle : IsWord handle
  solid : ∀ c ∈ minor, c.isBlank = false
  isWord_options : ∀ w ∈ options, IsWord w
  noMultiQueue : (minor :: options).IsChain Header.NoMultiQueue
  inside : ∀ l ∈ body, Report.isHeader l = false
  oneLine : ∀ l ∈ body, newline ∉ l

namespace ChildQueue

variable (c : ChildQueue) (p : Place)

/-- The words behind the device. -/
def tail : Text :=
  ("parent" : Text) ++ space :: (p.handle ++ colon ::
    (c.minor ++ (spread (c.options.map fun w => (1, w)) ++ List.replicate c.trail space)))

def header : Text := headerFront "cake" c.handle p.device ++ space :: c.tail p

def lines : List Text := c.header p :: c.body

theorem isParagraph_lines : Report.IsParagraph (c.lines p) := .intro rfl c.inside

theorem newline_not_mem_lines : ∀ l ∈ c.lines p, newline ∉ l := by
  have hsolid {w : Text} (h : ∀ x ∈ w, x.isBlank = false) : newline ∉ w := fun hm =>
    absurd (h newline hm) (by decide)
  have hoptions : newline ∉ spread (c.options.map fun w => (1, w)) :=
    Text.newline_not_mem_spread fun cell hc => (Text.apart_single c.isWord_options cell hc).2
  have htrail : newline ∉ List.replicate c.trail space := fun hm =>
    absurd (List.mem_replicate.mp hm).2 (by decide)
  refine List.forall_mem_cons.mpr ⟨?_, c.oneLine⟩
  rw [header, tail]
  simp only [List.mem_append, List.mem_cons, not_or]
  exact ⟨newline_not_mem_headerFront (by decide) c.isWord_handle p.isWord_device, by decide, by decide,
    by decide, hsolid p.isWord_handle.solid, by decide, hsolid c.solid, hoptions, htrail⟩

theorem words_tail : (c.tail p).words
    = ("parent" : Text) :: (p.handle ++ colon :: c.minor) :: c.options := by
  have hplace : IsWord (p.handle ++ colon :: c.minor) := isWord_append_colon p.isWord_handle _ c.solid
  have hrest : p.handle ++ colon ::
        (c.minor ++ (spread (c.options.map fun w => (1, w)) ++ List.replicate c.trail space))
      = (p.handle ++ colon :: c.minor) ++ spread (c.options.map fun w => (1, w))
        ++ List.replicate c.trail space := by simp
  rw [tail, Text.words_append_blank Text.isBlank_space, IsWord.words_eq (by decide : IsWord "parent"),
    hrest, Text.words_append_blanks Text.isBlank_of_mem_replicate,
    Text.words_append_spread hplace (Text.apart_single c.isWord_options), Text.map_snd_single]
  rfl

/-- The name of the parent ends like the number behind its colon. -/
theorem noMultiQueue_place :
    ((p.handle ++ colon :: c.minor) :: c.options).IsChain Header.NoMultiQueue := by
  obtain ⟨hfirst, hrest⟩ := List.isChain_cons.mp c.noMultiQueue
  refine List.isChain_cons.mpr ⟨fun w hw => (hfirst w hw).imp_left fun hnone => ?_, hrest⟩
  rw [Option.eq_none_iff_forall_ne_some]
  intro r hr
  have hends := Text.beforeSuffix?_eq_some_iff.mp hr
  rcases List.append_eq_append_iff.mp hends with ⟨x, hx, hminor⟩ | ⟨x, hx, hq⟩
  · cases x with
    | nil => exact absurd (List.cons.inj hminor).1 (by decide)
    | cons e x =>
      refine Header.ne_append_of_beforeSuffix?_eq_none hnone x ?_
      exact (List.cons.inj hminor).2
  · have hcolon : colon ∈ ("qdisc" : Text) := by
      rw [hq]
      simp
    exact absurd hcolon (by decide)

/-- **The parent that a child names** is the handle in front of the colon, whatever its device is called. -/
theorem parentMajor?_header : Header.parentMajor? (c.header p) = some p.handle := by
  have hfront : ((headerFront "cake" c.handle p.device).words ++ [("parent" : Text)]).IsChain
      Header.NoParent := by
    have hends : Text.beforeSuffix? "parent" (c.handle ++ [colon]) = none := by
      rw [Option.eq_none_iff_forall_ne_some]
      intro r hr
      have hlast := congrArg List.getLast? (Text.beforeSuffix?_eq_some_iff.mp hr)
      rw [List.getLast?_concat, List.getLast?_append_of_ne_nil r (by decide)] at hlast
      exact absurd hlast (by decide)
    rw [words_headerFront (by decide) c.isWord_handle p.isWord_device]
    exact .cons_cons (Or.inl (by decide)) <| .cons_cons (Or.inl (by decide)) <|
      .cons_cons (Or.inl hends) <| .cons_cons (Or.inl (by decide)) <|
      .cons_cons (Or.inr (by decide)) (.singleton _)
  rw [header, Header.parentMajor?_append (c.words_tail p) hfront, tail]
  exact Header.parentMajor?_of_parentAt? (Header.parentAt?_append p.isWord_handle p.noColon _)

theorem attachment?_header : Block.attachment? (c.header p) = some (.under p.handle) := by
  have hcake : Text.includes "qdisc cake " (c.header p) = true :=
    Text.includes_iff.mpr ⟨[], Text.join [space] [c.handle ++ [colon], "dev", p.device]
      ++ space :: c.tail p, rfl⟩
  have hmq : Text.includes "qdisc cake_mq " (c.header p) = false := by
    refine Header.not_includes_multiQueue ?_
    rw [header, Text.words_append_blank Text.isBlank_space,
      words_headerFront (by decide) c.isWord_handle p.isWord_device, words_tail]
    exact .cons_cons (by decide) <| .cons_cons (Or.inl (by decide)) <| .cons_cons (Or.inr (by decide)) <|
      .cons_cons (Or.inl (by decide)) <| .cons_cons (Or.inr (by decide)) <|
      .cons_cons (Or.inl (by decide)) (c.noMultiQueue_place p)
  rw [Block.attachment?, hmq, hcake, c.parentMajor?_header p]
  rfl

theorem read?_header : Header.read? (c.header p)
    = some ⟨(c.handle ++ [colon]).trimEndBy (· = colon), p.device,
        .text .direction "egress" :: Header.optionChanges (c.tail p).words⟩ :=
  read?_headerFront (by decide) c.isWord_handle p.isWord_device _

/-- **The block of a child** is its snapshot with the handle of its parent. -/
theorem read?_lines (t : Timestamp) : Block.read? t (c.lines p)
    = (Block.readLines t (c.lines p)).map fun s => some ⟨s, .under p.handle⟩ := by
  have hplace : Block.attachment? ((c.lines p).headD []) = some (.under p.handle) :=
    c.attachment?_header p
  rw [Block.read?, hplace]

/-- It has the key of the parent's place. -/
theorem childKey?_block {t : Timestamp} {s : Snapshot} (h : Block.readLines t (c.lines p) = .ok s) :
    MultiQueue.childKey? ⟨s, .under p.handle⟩ = some p.key := by
  have hinterface : s.interface = p.device := congrArg Prod.fst <|
    (Block.identity_readLines h).trans (Draft.identity_ofHeader (c.read?_header p))
  show some (s.interface, p.handle) = _
  rw [hinterface]
  rfl

/-! ## Children printed like root queues -/

/-- The child that is printed like a queue at the root of a device, but for the name of a parent. -/
def ofPrinted (q : PrintedQueue) (minor : Text) (solid : ∀ c ∈ minor, c.isBlank = false) :
    ChildQueue where
  handle := q.handle.text
  minor := minor
  options := "refcnt" :: "2" :: q.optionGroups.flatten
  trail := 1
  body := q.body
  isWord_handle := q.handle.isWord
  solid := solid
  isWord_options := List.forall_mem_cons.mpr
    ⟨by decide, List.forall_mem_cons.mpr ⟨by decide, q.isWord_options⟩⟩
  noMultiQueue := by
    refine .cons_cons (Or.inr (by decide)) (Header.Keyed.noMultiQueue ?_)
    exact .word (by decide) <| .word (by decide) <|
      .flatten fun g hg => (q.group_of_mem_optionGroups g hg).keyed
  inside := fun l hl => (q.isLaidOut_body l hl).not_isHeader
  oneLine := fun l hl => (q.isLaidOut_body l hl).newline_not_mem

end ChildQueue

namespace Header

theorem fst_mem_fixedWords :
    (∀ a ∈ arguments, a.1 ∈ fixedWords) ∧ ∀ f ∈ flags, f.1 ∈ fixedWords := by decide

/-- A word that is none of the program's sets no option. -/
theorem says_of_not_fixed {w : Text} (h : w ∉ fixedWords) : Says [w] [] := by
  have hargument : argument? w = none := by
    rw [argument?, Option.map_eq_none_iff, List.find?_eq_none]
    intro a ha e
    exact h ((of_decide_eq_true e) ▸ fst_mem_fixedWords.1 a ha)
  have hflag : (flags.find? fun f => w = f.1) = none := by
    rw [List.find?_eq_none]
    intro f hf e
    exact h ((of_decide_eq_true e) ▸ fst_mem_fixedWords.2 f hf)
  have hkeyword : keyword? w = none := by
    rw [keyword?, if_neg fun hm => h (PrintedQueue.mem_fixedWords_diffserv w hm),
      if_neg fun hm => h (PrintedQueue.mem_fixedWords_flow w hm), hflag]
    rfl
  intro rest
  rw [List.singleton_append, optionChanges, hargument, hkeyword]
  rfl

end Header

namespace ChildQueue

variable (q : PrintedQueue) (minor : Text) (solid : ∀ c ∈ minor, c.isBlank = false) (p : Place)

theorem optionChanges_ofPrinted :
    Header.optionChanges ((ofPrinted q minor solid).tail p).words = q.changeGroups.flatten := by
  have hparent := Header.says_of_not_fixed (w := "parent") (by decide)
  have hplace : Header.Says [p.handle ++ colon :: minor] [] :=
    Header.says_of_not_fixed fun hm => (Header.not_endsIn_of_fixed _ hm).2.2.1 (by simp)
  have hcount : Header.Says ["refcnt", "2"] [] := fun _ => rfl
  have hgroups : Header.optionChanges q.optionGroups.flatten = q.changeGroups.flatten :=
    Header.optionChanges_of_says (Header.says_flatten q.says_optionGroups)
  rw [words_tail]
  exact (hparent _).trans ((hplace _).trans ((hcount _).trans hgroups))

/-- **A child printed like a root queue** says the same, but for its device and its header. -/
theorem readLines_ofPrinted (t : Timestamp) :
    Block.readLines t ((ofPrinted q minor solid).lines p) = .ok { q.snapshot t with
      interface := p.device, rawHeader := ((ofPrinted q minor solid).header p).trim } := by
  have hheader : Draft.ofHeader t ((ofPrinted q minor solid).header p)
      = { snapshot := { interface := p.device, handle := q.handle.text
                        rawHeader := ((ofPrinted q minor solid).header p).trim, updatedAt := t
                        options := q.options } } := by
    have hhandle : ((ofPrinted q minor solid).handle ++ [colon]).trimEndBy (· = colon)
        = q.handle.text := q.trimEndBy_handle
    rw [Draft.ofHeader, read?_header, hhandle, optionChanges_ofPrinted, ← q.setAll_changeGroups]
  have hbody := q.readLines_body t ((ofPrinted q minor solid).header p) 0
  rw [List.replicate_zero, List.append_nil, hheader] at hbody
  exact hbody

end ChildQueue

end CakeMonitor
