import Interpolation.Proofs.Text.Search
import Interpolation.Tag.Basic
import Interpolation.Template.Piece

/-!
# The blocks of a source

A source whose tags are all closed and can be read consists of blocks, each of them a text and the
tag behind it, and a last text without a tag.  The pieces of the source are those of its blocks.
-/

namespace Interpolation

/-! ## Pieces -/

namespace Piece

theorem ofText_toList (make : String → Piece) (text : String) :
    ofText make text.toList = if text = "" then [] else [make text] := by
  simp [ofText]

theorem eq_of_mem_ofText {make : String → Piece} {text : String} {piece : Piece}
    (h : piece ∈ ofText make text.toList) : piece = make text := by
  rw [ofText_toList] at h
  split at h
  · cases h
  · exact List.mem_singleton.1 h

variable {source before inside contents after : List Char}

theorem cut_last (h : splitAtPair '{' source = none) : cut source = ofText .last source := by
  rw [cut]
  split
  · rfl
  · next hsplit => cases h.symm.trans hsplit

theorem cut_unclosed (h : splitAtPair '{' source = some (before, inside))
    (hinside : splitAtPair '}' inside = none) :
    cut source = ofText .text before ++ [.unclosed] := by
  rw [cut]
  split
  · next hsplit => cases h.symm.trans hsplit
  · next hsplit =>
    cases h.symm.trans hsplit
    split
    · rfl
    · next hsplit => cases hinside.symm.trans hsplit

theorem cut_tag (h : splitAtPair '{' source = some (before, inside))
    (hinside : splitAtPair '}' inside = some (contents, after)) :
    cut source = ofText .text before ++ .tag (String.ofList contents) :: cut after := by
  rw [cut]
  split
  · next hsplit => cases h.symm.trans hsplit
  · next hsplit =>
    cases h.symm.trans hsplit
    split
    · next hsplit => cases hinside.symm.trans hsplit
    · next hsplit =>
      cases hinside.symm.trans hsplit
      rfl

end Piece

/-! ## Blocks -/

/-- A text without a tag, and a tag behind it that can be read. -/
structure Block where
  before : String
  contents : String
  tag : Tag Operand Condition
  opens : ¬ ['{', '{'] <:+: before.toList ++ ['{']
  closes : ¬ ['}', '}'] <:+: contents.toList ++ ['}']
  read : (Tag.read (Tag.components contents) none).result = .ok tag

namespace Block

/-- The tag of the block with its braces. -/
def braced (block : Block) : String := "\x7b\x7b" ++ block.contents ++ "\x7d\x7d"

/-- The block in the source. -/
def written (block : Block) : String := block.before ++ block.braced

/-- Blocks one after another in the source. -/
def allWritten (blocks : List Block) : String := String.join (blocks.map written)

@[simp] theorem allWritten_nil : allWritten [] = "" := rfl

@[simp] theorem allWritten_cons (block : Block) (blocks : List Block) :
    allWritten (block :: blocks) = block.written ++ allWritten blocks := String.join_cons

theorem toList_written_append (block : Block) (rest : String) :
    (block.written ++ rest).toList =
      block.before.toList ++
        '{' :: '{' :: (block.contents.toList ++ '}' :: '}' :: rest.toList) := by
  simp [written, braced]

theorem cut_written (block : Block) (rest : String) :
    Piece.cut (block.written ++ rest).toList =
      Piece.ofText .text block.before.toList ++ .tag block.contents :: Piece.cut rest.toList := by
  rw [toList_written_append, Piece.cut_tag (splitAtPair_of_first block.opens _)
    (splitAtPair_of_first block.closes _), String.ofList_toList]

theorem mem_cut_allWritten {blocks : List Block} {last : String}
    (hplain : ¬ ['{', '{'] <:+: last.toList) {piece : Piece}
    (h : piece ∈ Piece.cut (allWritten blocks ++ last).toList) :
    (∃ text, piece = .text text) ∨ (∃ text, piece = .last text) ∨
      ∃ block ∈ blocks, piece = .tag block.contents := by
  induction blocks with
  | nil =>
    rw [allWritten_nil, String.empty_append, Piece.cut_last (splitAtPair_eq_none hplain)] at h
    exact .inr (.inl ⟨last, Piece.eq_of_mem_ofText h⟩)
  | cons block blocks ih =>
    rw [allWritten_cons, String.append_assoc, cut_written, List.mem_append, List.mem_cons] at h
    rcases h with htext | rfl | hrest
    · exact .inl ⟨block.before, Piece.eq_of_mem_ofText htext⟩
    · exact .inr (.inr ⟨block, List.mem_cons_self, rfl⟩)
    · rcases ih hrest with htext | hlast | ⟨other, hmem, hother⟩
      · exact .inl htext
      · exact .inr (.inl hlast)
      · exact .inr (.inr ⟨other, List.mem_cons_of_mem _ hmem, hother⟩)

/-! ## Sources made of blocks -/

/-- The source consists of the blocks and a last text, in which no tag begins. -/
structure AreIn (source : String) (blocks : List Block) (last : String) : Prop where
  source_eq : source = allWritten blocks ++ last
  plain : ¬ ['{', '{'] <:+: last.toList

theorem areIn_cons {source : List Char} {blocks : List Block} {last : String} (block : Block)
    (h : AreIn (String.ofList source) blocks last) :
    AreIn (String.ofList (block.before.toList ++
      '{' :: '{' :: (block.contents.toList ++ '}' :: '}' :: source))) (block :: blocks) last := by
  refine ⟨?_, h.plain⟩
  rw [allWritten_cons, String.append_assoc, ← h.source_eq, ← String.toList_inj,
    toList_written_append, String.toList_ofList, String.toList_ofList]

theorem exists_areIn {source : List Char} (hclosed : .unclosed ∉ Piece.cut source)
    (hread : ∀ contents, .tag contents ∈ Piece.cut source →
      ∃ tag, (Tag.read (Tag.components contents) none).result = .ok tag) :
    ∃ blocks last, AreIn (String.ofList source) blocks last := by
  induction source using Piece.cut.induct with
  | case1 source hopen =>
    refine ⟨[], String.ofList source, (String.empty_append).symm, ?_⟩
    rw [String.toList_ofList]
    exact splitAtPair_eq_none_iff.1 hopen
  | case2 source before inside hopen ih =>
    cases hclose : splitAtPair '}' inside with
    | none =>
      rw [Piece.cut_unclosed hopen hclose] at hclosed
      exact absurd (List.mem_append_right _ List.mem_cons_self) hclosed
    | some pieces =>
      obtain ⟨contents, after⟩ := pieces
      rw [Piece.cut_tag hopen hclose] at hclosed hread
      obtain ⟨rfl, hopens⟩ := splitAtPair_eq_some_iff.1 hopen
      obtain ⟨rfl, hcloses⟩ := splitAtPair_eq_some_iff.1 hclose
      obtain ⟨tag, htag⟩ := hread _ (List.mem_append_right _ List.mem_cons_self)
      obtain ⟨blocks, last, hafter⟩ := ih contents after hclose
        (fun hmem => hclosed (List.mem_append_right _ (List.mem_cons_of_mem _ hmem)))
        (fun other hmem => hread other (List.mem_append_right _ (List.mem_cons_of_mem _ hmem)))
      let block : Block := {
        before := String.ofList before
        contents := String.ofList contents
        tag := tag
        opens := by rwa [String.toList_ofList]
        closes := by rwa [String.toList_ofList]
        read := htag }
      have hblocks := areIn_cons block hafter
      rw [String.toList_ofList, String.toList_ofList] at hblocks
      exact ⟨block :: blocks, last, hblocks⟩

/-- A source consists of blocks just if all its tags are closed and can be read. -/
theorem exists_areIn_iff {source : String} :
    (∃ blocks last, AreIn source blocks last) ↔
      .unclosed ∉ Piece.cut source.toList ∧
      ∀ contents, .tag contents ∈ Piece.cut source.toList →
        ∃ tag, (Tag.read (Tag.components contents) none).result = .ok tag := by
  constructor
  · rintro ⟨blocks, last, rfl, hplain⟩
    constructor
    · intro hmem
      rcases mem_cut_allWritten hplain hmem with ⟨_, ⟨⟩⟩ | ⟨_, ⟨⟩⟩ | ⟨_, _, ⟨⟩⟩
    · intro contents hmem
      rcases mem_cut_allWritten hplain hmem with ⟨_, ⟨⟩⟩ | ⟨_, ⟨⟩⟩ | ⟨block, _, ⟨⟩⟩
      exact ⟨block.tag, block.read⟩
  · rintro ⟨hclosed, hread⟩
    have hblocks := exists_areIn hclosed hread
    rwa [String.ofList_toList] at hblocks

end Block

end Interpolation
