import Interpolation.Proofs.Render.Faults
import Interpolation.Proofs.Source.Position
import Interpolation.Proofs.Tag.Placing
import Interpolation.Proofs.Template.Blocks
import Interpolation.Template.Basic

/-!
# What a source shows

The parts of a source follow one another without a gap, and its texts are shown as they are: only the
tags are replaced, each by what it shows on its own.  The first tag that fails gives the failure its
place, in bytes as well as in rows and columns.
-/

namespace Interpolation

/-! ## Parts one behind another -/

namespace Part

/-- The part for a text, unless it is empty. -/
def ofText (origin : Option Origin) (text : String) : List Part :=
  if text = "" then [] else [.text text .nothing origin]

/-- The parts have origins, of which the first begins at one position, each of the others where the
one before it ends, and the last ends at another position. -/
def Consecutive : Position → List Part → Position → Prop
  | start, [], stop => start = stop
  | start, part :: parts, stop =>
    ∃ origin, part.origin = some origin ∧ origin.span.start = start ∧
      Consecutive origin.span.stop parts stop

theorem Consecutive.append {start middle stop : Position} {parts others : List Part}
    (h : Consecutive start parts middle) (hothers : Consecutive middle others stop) :
    Consecutive start (parts ++ others) stop := by
  induction parts generalizing start with
  | nil =>
    rw [show start = middle from h]
    exact hothers
  | cons part parts ih =>
    obtain ⟨origin, horigin, hstart, hparts⟩ := h
    exact ⟨origin, horigin, hstart, ih hparts⟩

theorem consecutive_ofText (file : Nat) (front text : String) :
    Consecutive (.behind front) (ofText (some (.behind file front text)) text)
      (.behind (front ++ text)) := by
  by_cases h : text = ""
  · rw [ofText, if_pos h, h, String.append_empty]
    rfl
  · rw [ofText, if_neg h]
    exact ⟨_, rfl, rfl, rfl⟩

theorem joinAll_ofText (origin : Option Origin) (text : String) (context : Context) :
    Outcome.joinAll ((ofText origin text).map (outcome context)) = .ok text := by
  by_cases h : text = ""
  · rw [ofText, if_pos h, h]
    rfl
  · have houtcome : outcome context (.text text .nothing origin) = .ok text :=
      congrArg Except.ok String.ofList_toList
    rw [ofText, if_neg h, List.map_singleton, houtcome, Outcome.joinAll_cons, Outcome.joinAll_nil,
      Outcome.joined_empty]

end Part

namespace Block

/-! ## The parts of a block -/

/-- The tag of the block as a part of a file, behind a text. -/
def tagPart (file : Nat) (front : String) (block : Block) : Part :=
  .tag (block.tag.placed (some (.behind file front block.braced)))

/-- The parts of blocks in a file, behind a text. -/
def located (file : Nat) : String → List Block → List Part
  | _, [] => []
  | front, block :: blocks =>
    Part.ofText (some (.behind file front block.before)) block.before ++
      block.tagPart file (front ++ block.before) :: located file (front ++ block.written) blocks

theorem append_written (front : String) (block : Block) :
    front ++ block.before ++ block.braced = front ++ block.written := String.append_assoc

theorem consecutive_located (file : Nat) (front : String) (blocks : List Block) :
    Part.Consecutive (.behind front) (located file front blocks)
      (.behind (front ++ allWritten blocks)) := by
  induction blocks generalizing front with
  | nil =>
    rw [allWritten_nil, String.append_empty]
    rfl
  | cons block blocks ih =>
    have hstop : (block.tagPart file (front ++ block.before)).origin =
        some ⟨file, .behind (front ++ block.before), .behind (front ++ block.written)⟩ := by
      rw [← append_written]
      rfl
    have hblocks := ih (front ++ block.written)
    rw [String.append_assoc, ← allWritten_cons] at hblocks
    exact (Part.consecutive_ofText file front block.before).append ⟨_, hstop, rfl, hblocks⟩

end Block

namespace Template

/-! ## The parts of a source -/

variable (file : Nat) {source front rest : String}

theorem partsFrom_text (text : String) (h : source = front ++ text ++ rest) (pieces : List Piece) :
    (partsFrom file source front.utf8ByteSize (Piece.ofText .text text.toList ++ pieces)).result =
      (partsFrom file source (front ++ text).utf8ByteSize pieces).result.map
        (Part.ofText (some (.behind file front text)) text ++ ·) := by
  rw [Piece.ofText_toList, Part.ofText]
  by_cases htext : text = ""
  · rw [if_pos htext, if_pos htext, htext, String.append_empty]
    change _ = (partsFrom file source front.utf8ByteSize pieces).result.map id
    rw [Except.map_id]
    rfl
  · rw [if_neg htext, if_neg htext, List.singleton_append, partsFrom]
    dsimp only [Piece.width]
    rw [h, Origin.ofOffsets_append, String.utf8ByteSize_append]
    rfl

theorem partsFrom_tag (block : Block) (h : source = front ++ block.braced ++ rest)
    (pieces : List Piece) :
    (partsFrom file source front.utf8ByteSize (.tag block.contents :: pieces)).result =
      (partsFrom file source (front ++ block.braced).utf8ByteSize pieces).result.map
        (block.tagPart file front :: ·) := by
  have hwidth : (Piece.tag block.contents).width = block.braced.utf8ByteSize := by
    rw [Block.braced, String.utf8ByteSize_append, String.utf8ByteSize_append]
    show block.contents.utf8ByteSize + 4 = 2 + block.contents.utf8ByteSize + 2
    omega
  rw [partsFrom, hwidth]
  simp only [h, Origin.ofOffsets_append, Tag.read_eq_ok_placed block.read,
    String.utf8ByteSize_append]
  rfl

theorem partsFrom_last (text : String) (offset : Nat) :
    (partsFrom file source offset (Piece.ofText .last text.toList)).result =
      .ok (Part.ofText none text) := by
  rw [Piece.ofText_toList, Part.ofText]
  split <;> rfl

/-- A source that consists of blocks is read: the parts are those of the blocks and the last text. -/
theorem partsFrom_allWritten {blocks : List Block} {last : String}
    (hplain : ¬ ['{', '{'] <:+: last.toList)
    (hsource : source = front ++ (Block.allWritten blocks ++ last)) :
    (partsFrom file source front.utf8ByteSize
        (Piece.cut (Block.allWritten blocks ++ last).toList)).result =
      .ok (Block.located file front blocks ++ Part.ofText none last) := by
  induction blocks generalizing front with
  | nil =>
    rw [Block.allWritten_nil, String.empty_append, Piece.cut_last (splitAtPair_eq_none hplain)]
    exact partsFrom_last file last _
  | cons block blocks ih =>
    have hblocks : source = front ++ block.written ++ (Block.allWritten blocks ++ last) := by
      rw [hsource, Block.allWritten_cons, String.append_assoc, String.append_assoc]
    have htag : source =
        front ++ block.before ++ block.braced ++ (Block.allWritten blocks ++ last) := by
      rw [hblocks, Block.append_written]
    have htext : source =
        front ++ block.before ++ (block.braced ++ (Block.allWritten blocks ++ last)) := by
      rw [htag, String.append_assoc]
    rw [Block.allWritten_cons, String.append_assoc, Block.cut_written,
      partsFrom_text file block.before htext, partsFrom_tag file block htag,
      Block.append_written, ih hblocks]
    simp [Except.map, Block.located]

theorem partsOf_areIn {blocks : List Block} {last : String} (h : Block.AreIn source blocks last) :
    (partsOf file source).result =
      .ok (Block.located file "" blocks ++ Part.ofText none last) := by
  have hempty : source = "" ++ (Block.allWritten blocks ++ last) := by
    rw [String.empty_append, h.source_eq]
  have hparts := partsFrom_allWritten file h.plain hempty
  rwa [← h.source_eq] at hparts

end Template

/-! ## What blocks show -/

namespace Block

/-- What the tag of the block shows on its own. -/
def shown (block : Block) (context : Context) : Outcome :=
  ((Node.ofTag block.tag).render context).result

theorem shown_eq (block : Block) (context : Context) :
    block.shown context = (Part.tag block.tag).result context :=
  congrArg Logged.result ((Part.tag block.tag).render_toNode context)

theorem outcome_tagPart (file : Nat) (front : String) (block : Block) (context : Context) :
    (block.tagPart file front).outcome context =
      Outcome.orAt (some (.behind file front block.braced)) (block.shown context) := by
  rw [shown_eq]
  rfl

/-- A tag that fails on its own has no place. -/
theorem shown_cases (block : Block) (context : Context) :
    (∃ text, block.shown context = .ok text) ∨
      ∃ fault, block.shown context = .error ⟨fault, none⟩ := by
  have hresult := (Part.tag block.tag).result_eq_of_find? context
  rw [← shown_eq] at hresult
  split at hresult
  · exact .inr ⟨_, hresult⟩
  · exact .inl hresult

/-- Either all tags show texts, or there is a first one that fails. -/
theorem all_shown_or_first_fault (blocks : List Block) (context : Context) :
    (∀ block ∈ blocks, ∃ text, block.shown context = .ok text) ∨
      ∃ earlier block later fault, blocks = earlier ++ block :: later ∧
        (∀ other ∈ earlier, ∃ text, other.shown context = .ok text) ∧
        block.shown context = .error ⟨fault, none⟩ := by
  induction blocks with
  | nil => exact .inl (List.forall_mem_nil _)
  | cons first blocks ih =>
    rcases first.shown_cases context with htext | ⟨fault, hfault⟩
    · rcases ih with hblocks | ⟨earlier, block, later, fault, rfl, hearlier, hfault⟩
      · exact .inl (List.forall_mem_cons.2 ⟨htext, hblocks⟩)
      · exact .inr ⟨first :: earlier, block, later, fault, rfl,
          List.forall_mem_cons.2 ⟨htext, hearlier⟩, hfault⟩
    · exact .inr ⟨[], first, blocks, fault, rfl, List.forall_mem_nil _, hfault⟩

theorem joinAll_located_cons (file : Nat) (front : String) (block : Block) (blocks : List Block)
    (context : Context) :
    Outcome.joinAll ((located file front (block :: blocks)).map (Part.outcome context)) =
      Outcome.joined (.ok block.before)
        (Outcome.joined
          (Outcome.orAt (some (.behind file (front ++ block.before) block.braced))
            (block.shown context))
          (Outcome.joinAll
            ((located file (front ++ block.written) blocks).map (Part.outcome context)))) := by
  rw [located, List.map_append, Outcome.joinAll_append, Part.joinAll_ofText, List.map_cons,
    Outcome.joinAll_cons, outcome_tagPart]

theorem joinAll_located_of_shown (file : Nat) {front : String} {blocks : List Block}
    {context : Context} {text : Block → String}
    (h : ∀ block ∈ blocks, block.shown context = .ok (text block)) :
    Outcome.joinAll ((located file front blocks).map (Part.outcome context)) =
      .ok (String.join (blocks.map fun block => block.before ++ text block)) := by
  induction blocks generalizing front with
  | nil => rfl
  | cons block blocks ih =>
    obtain ⟨hblock, hblocks⟩ := List.forall_mem_cons.1 h
    rw [joinAll_located_cons, hblock, ih hblocks, List.map_cons, String.join_cons,
      String.append_assoc]
    rfl

theorem joinAll_located_of_fault (file : Nat) {front : String} {earlier later : List Block}
    {block : Block} {context : Context} {fault : RenderFault}
    (hearlier : ∀ other ∈ earlier, ∃ text, other.shown context = .ok text)
    (h : block.shown context = .error ⟨fault, none⟩) :
    Outcome.joinAll
        ((located file front (earlier ++ block :: later)).map (Part.outcome context)) =
      .error ⟨fault, some (.behind file (front ++ allWritten earlier ++ block.before) block.braced)⟩ := by
  induction earlier generalizing front with
  | nil =>
    rw [List.nil_append, joinAll_located_cons, h, allWritten_nil, String.append_empty]
    rfl
  | cons other earlier ih =>
    obtain ⟨⟨text, htext⟩, hothers⟩ := List.forall_mem_cons.1 hearlier
    rw [List.cons_append, joinAll_located_cons, htext, ih hothers, allWritten_cons,
      ← String.append_assoc]
    rfl

theorem result_renderAll_located (file : Nat) (blocks : List Block) (last : String)
    (context : Context) :
    (Node.renderAll ((located file "" blocks ++ Part.ofText none last).map Part.toNode)
        context).result =
      Outcome.joined (Outcome.joinAll ((located file "" blocks).map (Part.outcome context)))
        (.ok last) := by
  rw [Part.result_renderAll_parts, List.map_append, Outcome.joinAll_append, Part.joinAll_ofText]

end Block

namespace Template

/-- A source whose tags are all closed and can be read consists of texts with tags behind them and a
last text.  Its parts follow one another from the first byte to the last text, which alone has no
origin.  It is shown with each tag replaced by what the tag shows on its own, and nothing else
changed, unless a tag fails; then the failure of the first one that does has the place of this tag,
which is displayed as the line and the character in the line, both counted from one. -/
theorem partsOf_consecutive_and_shown (file : Nat) (source : String) :
    ((∃ blocks last, Block.AreIn source blocks last) ↔
      .unclosed ∉ Piece.cut source.toList ∧
      ∀ contents, .tag contents ∈ Piece.cut source.toList →
        ∃ tag, (Tag.read (Tag.components contents) none).result = .ok tag) ∧
    ∀ blocks last, Block.AreIn source blocks last → ∃ located,
      let parts := located ++ Part.ofText none last
      (partsOf file source).result = .ok parts ∧
      Part.Consecutive ⟨0, 0, 0⟩ located (.behind (Block.allWritten blocks)) ∧
      ∀ context,
        (∃ text : Block → String, (∀ block ∈ blocks, block.shown context = .ok (text block)) ∧
          (Node.renderAll (parts.map Part.toNode) context).result =
            .ok (String.join (blocks.map fun block => block.before ++ text block) ++ last)) ∨
        ∃ earlier block later fault origin, blocks = earlier ++ block :: later ∧
          (∀ other ∈ earlier, ∃ text, other.shown context = .ok text) ∧
          block.shown context = .error ⟨fault, none⟩ ∧
          (Node.renderAll (parts.map Part.toNode) context).result =
            .error ⟨fault, some origin⟩ ∧
          let front := Block.allWritten earlier ++ block.before
          origin.file = file ∧ origin.span.start.offset = front.utf8ByteSize ∧
          origin.span.stop.offset = (front ++ block.braced).utf8ByteSize ∧
          origin.display = toString (front.toList.count '\n' + 1) ++ ":" ++
            toString (Position.lastLine front.toList + 1) := by
  refine ⟨Block.exists_areIn_iff, fun blocks last hin => ?_⟩
  refine ⟨Block.located file "" blocks, partsOf_areIn file hin, ?_, fun context => ?_⟩
  · have hconsecutive := Block.consecutive_located file "" blocks
    rwa [String.empty_append] at hconsecutive
  · rw [Block.result_renderAll_located]
    rcases Block.all_shown_or_first_fault blocks context with hshown |
        ⟨earlier, block, later, fault, rfl, hearlier, hfault⟩
    · left
      let text (block : Block) : String := (block.shown context).toOption.getD ""
      have htext : ∀ block ∈ blocks, block.shown context = .ok (text block) := by
        intro block hblock
        obtain ⟨shown, hshown⟩ := hshown block hblock
        simp only [text, hshown, Except.toOption, Option.getD_some]
      refine ⟨text, htext, ?_⟩
      rw [Block.joinAll_located_of_shown file htext]
      rfl
    · right
      refine ⟨earlier, block, later, fault,
        .behind file (Block.allWritten earlier ++ block.before) block.braced,
        rfl, hearlier, hfault, ?_, rfl, rfl, rfl, rfl⟩
      rw [Block.joinAll_located_of_fault file hearlier hfault, String.empty_append]
      rfl

theorem partsOf_consecutive_and_shown_adjacent_tags :
    let source := "né\ne \x7b\x7b name \x7d\x7d\x7b\x7b 1 if name < 2 \x7d\x7d!"
    let context : Context := { innermost := [("name", .text "Ada")] }
    ∃ parts fault origin, (partsOf 0 source).result = .ok parts ∧
      (Node.renderAll (parts.map Part.toNode) context).result = .error ⟨fault, some origin⟩ ∧
      origin.span.start.offset = 16 ∧ origin.span.stop.offset = 35 ∧
      origin.display = "2:13" := by
  intro source context
  let greeting : Block := {
    before := "né\ne "
    contents := " name "
    tag := { value := .path "name" }
    opens := splitAtPair_eq_none_iff.1 rfl
    closes := splitAtPair_eq_none_iff.1 rfl
    read := rfl }
  let failing : Block := {
    before := ""
    contents := " 1 if name < 2 "
    tag := {
      value := .literal (.int 1)
      branch := some ⟨.compare .less (.path "name") (.literal (.int 2)), none⟩ }
    opens := splitAtPair_eq_none_iff.1 rfl
    closes := splitAtPair_eq_none_iff.1 rfl
    read := rfl }
  have hin : Block.AreIn source [greeting, failing] "!" := by
    refine ⟨?_, splitAtPair_eq_none_iff.1 rfl⟩
    rw [← String.toList_inj]
    rfl
  obtain ⟨located, hparts, -, hshown⟩ := (partsOf_consecutive_and_shown 0 source).2 _ _ hin
  have hgreeting : greeting.shown context = .ok "Ada" := rfl
  have hfailing : failing.shown context = .error ⟨.notNumeric .less, none⟩ := rfl
  rcases hshown context with ⟨text, htext, -⟩ | ⟨earlier, block, later, fault, origin, hsplit, -,
    hfault, hresult, -, hstart, hstop, hdisplay⟩
  · cases hfailing.symm.trans (htext failing (List.mem_cons_of_mem _ List.mem_cons_self))
  · refine ⟨_, fault, origin, hparts, hresult, ?_⟩
    cases earlier with
    | nil =>
      cases hsplit
      cases hgreeting.symm.trans hfault
    | cons first earlier =>
      obtain ⟨rfl, hrest⟩ := List.cons.inj hsplit
      cases earlier with
      | nil =>
        cases hrest
        have hrow : (Block.allWritten [greeting] ++ failing.before).toList.count '\n' = 1 := by
          decide
        have hcolumn :
            Position.lastLine (Block.allWritten [greeting] ++ failing.before).toList = 12 := by
          decide
        refine ⟨hstart.trans rfl, hstop.trans rfl, hdisplay.trans ?_⟩
        rw [hrow, hcolumn]
        rfl
      | cons second earlier => simp at hrest

end Template

end Interpolation
