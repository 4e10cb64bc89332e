import Mathlib.Data.List.Nodup
import FieldGraft.Expansion
import FieldGraft.Proofs.QuotedTexts

/-!
# Diagnostics in an expanded module

An expanded module is followed by one compile error for each error of its round and by one block for
each warning, in order, and by nothing else (`Expansion.expandModule_surfaces`). The literal in each
of them denotes the message of the diagnostic, and no two blocks name the same constant.
-/

namespace FieldGraft

namespace TokenTree

mutual

/-- The literals of a tree, as written. -/
def literals : TokenTree → List String
  | leaf _ (.literal text) => [text]
  | leaf _ _ => []
  | group _ _ body => literalsList body

/-- The literals of a list of trees, as written. -/
def literalsList : List TokenTree → List String
  | [] => []
  | t :: ts => t.literals ++ literalsList ts

end

end TokenTree

namespace Expansion

/-- **A compile error that shows a message**: the call by its full path, with one literal. -/
structure ShowsError (message : String) (ts : List TokenTree) : Prop where
  exists_literal : ∃ lit, Literal.Denotes lit message ∧ TokenTree.literalsList ts = [lit] ∧
    TokenTree.textList ts = ":: core :: compile_error ! \x7b " ++ lit ++ " \x7d"

/-- **A block that shows a message as a warning**: a constant of the given name is declared as
deprecated with the message and then used. -/
structure ShowsWarning (message name : String) (ts : List TokenTree) : Prop where
  exists_literal : ∃ lit, Literal.Denotes lit message ∧ TokenTree.literalsList ts = [lit] ∧
    TokenTree.textList ts = "const _ : () = \x7b # [deprecated (note = " ++ lit ++ ")] " ++
      "# [allow (non_upper_case_globals)] const " ++ name ++ " : () = () ; " ++ name ++ " \x7d ;"
  name : identifier? name = some (name, ⟨1, 0⟩)

/-! ### One diagnostic -/

theorem compileError_shows (message : String) : ShowsError message (compileError message) := by
  refine ⟨Text.quote message, Literal.denotes_quote message, rfl, String.toList_inj.mp ?_⟩
  simp [compileError, literalTree, opText, opTrees, keywordTree, TokenTree.textList, TokenTree.text,
    TokenTree.gluesNext, Token.text]

theorem toList_warningName (index : Nat) :
    (warningName index).toList =
      'f' :: ("ielder_warning_".toList ++ Nat.toDigits 10 index) := by
  have hfront : "fielder_warning_".toList = 'f' :: "ielder_warning_".toList := by decide
  have hdigits : (toString index).toList = Nat.toDigits 10 index := by
    rw [Nat.toString_eq_ofList_toDigits, String.toList_ofList]
  exact (String.toList_append ..).trans (congrArg₂ (· ++ ·) hfront hdigits)

theorem isNameContinue_of_isDigit {c : Char} (h : c.isDigit = true) :
    Text.isNameContinue c = true := by
  have hdigit : Text.isDigit c = true := by
    simpa [Char.isDigit, Text.isDigit, Char.le_def] using h
  have hcode : c.toNat < 0x80 := by
    simp only [Text.isDigit, Bool.and_eq_true, decide_eq_true_eq, Char.le_def,
      UInt32.le_iff_toNat_le] at hdigit
    exact Nat.lt_of_le_of_lt hdigit.2 (by decide)
  rw [Text.isNameContinue, if_pos hcode, hdigit, Bool.or_true, Bool.true_or]

/-- The name of a constant is an identifier. -/
theorem identifier?_warningName (index : Nat) :
    identifier? (warningName index) = some (warningName index, ⟨1, 0⟩) := by
  -- the digits come last, so only the fixed letters have to be checked for the name
  have hletters : "ielder_warning_".toList.all Text.isNameContinue = true := by decide +kernel
  have hname : Lexeme.IsName (warningName index).toList := by
    rw [toList_warningName]
    refine .plain (.intro (by decide) fun c hc => ?_)
    rcases List.mem_append.mp hc with hc | hc
    · exact List.all_eq_true.mp hletters c hc
    · exact isNameContinue_of_isDigit (Nat.isDigit_of_mem_toDigits (by decide) le_rfl hc)
  have hkeyword : isKeyword (warningName index) = false := by
    by_contra hkeyword
    have hmem : warningName index ∈ keywords :=
      List.contains_iff_mem.mp (Bool.not_eq_false _ ▸ hkeyword)
    -- every keyword is shorter than the fixed letters alone
    have hshort : ∀ name ∈ keywords, name.toList.length < 16 := by decide
    have hlong := hshort _ hmem
    rw [toList_warningName, List.length_cons, List.length_append] at hlong
    exact absurd hlong (by simp)
  exact identifier?_eq_some_iff.mpr ⟨hname, hkeyword, rfl⟩

/-- Different positions give different names. -/
theorem warningName_injective : Function.Injective warningName := by
  intro i j h
  have hlist := (toList_warningName i).symm.trans
    ((congrArg String.toList h).trans (toList_warningName j))
  have hdigits := List.append_cancel_left (List.cons.inj hlist).2
  rw [← Nat.ofDigitChars_ten_toDigits (n := i), hdigits, Nat.ofDigitChars_ten_toDigits]

theorem warningBlock_shows (index : Nat) (message : String) :
    ShowsWarning message (warningName index) (warningBlock index message) := by
  refine ⟨⟨Text.quote message, Literal.denotes_quote message, rfl, String.toList_inj.mp ?_⟩,
    identifier?_warningName index⟩
  generalize hname : warningName index = name
  simp [warningBlock, hname, literalTree, generatedAttribute, unitType, opText, opTrees,
    keywordTree, TokenTree.textList, TokenTree.text, TokenTree.gluesNext, Token.text]

/-! ### All diagnostics -/

/-- **The tokens after a module that has these diagnostics**: the compile errors, then the constants
with their names. -/
structure Surfaces (ds : List Diagnostic) (calls : List (List TokenTree))
    (constants : List (String × List TokenTree)) : Prop where
  errors : List.Forall₂ (fun d call => ShowsError d.message call)
    (ds.filter (·.severity == .error)) calls
  warnings : List.Forall₂ (fun d constant => ShowsWarning d.message constant.1 constant.2)
    (ds.filter (·.severity == .warning)) constants
  apart : (constants.map Prod.fst).Nodup

/-- The compile errors of a round are those of its errors, in order. -/
theorem errorTrees_shows (ds : List Diagnostic) :
    ∃ calls, errorTrees ds = calls.flatten ∧
      List.Forall₂ (fun d call => ShowsError d.message call)
        (ds.filter (·.severity == .error)) calls := by
  refine ⟨(ds.filter (·.severity == .error)).map (fun d => compileError d.message), ?_, ?_⟩
  · rw [errorTrees, List.flatMap_def]
  · exact List.forall₂_map_right_iff.mpr (List.forall₂_same.mpr fun d _ => compileError_shows _)

/-- The diagnostics that have a block, each with its position. -/
def numberedWarnings (ds : List Diagnostic) : List (Diagnostic × Nat) :=
  ds.zipIdx.filter (fun entry => entry.1.severity == .warning)

theorem map_fst_numberedWarnings (ds : List Diagnostic) :
    (numberedWarnings ds).map Prod.fst = ds.filter (·.severity == .warning) := by
  have hfilter := List.filter_map (f := Prod.fst)
    (p := fun d : Diagnostic => d.severity == .warning) (l := ds.zipIdx)
  rw [List.zipIdx_map_fst] at hfilter
  rw [hfilter]
  rfl

theorem nodup_positions (ds : List Diagnostic) :
    ((numberedWarnings ds).map Prod.snd).Nodup := by
  refine List.Nodup.sublist ((List.filter_sublist (l := ds.zipIdx)).map Prod.snd) ?_
  rw [List.zipIdx_map_snd]
  exact List.nodup_range'

theorem warningTrees_eq (ds : List Diagnostic) :
    warningTrees ds =
      (numberedWarnings ds).flatMap (fun entry => warningBlock entry.2 entry.1.message) := by
  rw [warningTrees, numberedWarnings]
  -- both walks go over the positions of the list, the one filtering before and the other after
  induction ds.zipIdx with
  | nil => rfl
  | cons entry rest ih =>
    obtain ⟨d, index⟩ := entry
    rw [List.flatMap_cons, List.filter_cons, ih]
    dsimp only
    split <;> rfl

/-- The blocks of a round are those of its warnings, in order, with different names. -/
theorem warningTrees_shows (ds : List Diagnostic) :
    ∃ constants, warningTrees ds = (constants.map Prod.snd).flatten ∧
      List.Forall₂ (fun d constant => ShowsWarning d.message constant.1 constant.2)
        (ds.filter (·.severity == .warning)) constants ∧
      (constants.map Prod.fst).Nodup := by
  refine ⟨(numberedWarnings ds).map
    (fun entry => (warningName entry.2, warningBlock entry.2 entry.1.message)), ?_, ?_, ?_⟩
  · rw [warningTrees_eq, List.flatMap_def, List.map_map]
    rfl
  · -- each block shows the message of its diagnostic
    rw [← map_fst_numberedWarnings, List.forall₂_map_left_iff, List.forall₂_map_right_iff]
    exact List.forall₂_same.mpr fun entry _ => warningBlock_shows _ _
  · -- positions are distinct, and so are the names made of them
    have hnames := (nodup_positions ds).map warningName_injective
    rwa [List.map_map] at hnames ⊢

/-- **An expanded module shows each rejection.** The module with the items that the round left is
followed by one compile error for each error and one constant for each warning, in order, and by
nothing for a note. -/
theorem expandModule_surfaces (placement : Placement) (attrs : List Attribute)
    (lead : List Code) (name : Word) (inner : List Attribute) (items : List Item) :
    let round := Session.injectItems { host := .source .attributeHost, placement } items
    ∃ calls constants, Surfaces round.2.2.diagnostics calls constants ∧
      expandModule placement (.module attrs lead name inner items) =
        .ok ((Item.module attrs lead name inner round.2.1).trees ++ calls.flatten ++
          (constants.map Prod.snd).flatten) := by
  intro round
  obtain ⟨calls, hcalls, herrors⟩ := errorTrees_shows round.2.2.diagnostics
  obtain ⟨constants, hconstants, hwarnings, hapart⟩ := warningTrees_shows round.2.2.diagnostics
  refine ⟨calls, constants, ⟨herrors, hwarnings, hapart⟩, ?_⟩
  -- the trees of the expansion are the calls and the blocks, behind those of the module
  rw [← hcalls, ← hconstants]
  rfl

end Expansion

end FieldGraft
