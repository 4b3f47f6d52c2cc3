import Reckoner.Proofs.Calculation.Account
import Reckoner.Proofs.Postfix.Conservation

/-!
# Postfix texts

The text of a postfix order tells its tokens, since none of them holds a blank and each is read
from its own text. So two expressions have one postfix text if and only if their trees have the
same texts at every node; the expressions differ then in their parentheses, in their blanks and in
how their runs of signs are written, and in nothing else: `toPostfix_unambiguous`.
-/

namespace Reckoner

open Grammar

variable {text other : Text} {tokens others ordered reordered : List Token} {token : Token}
  {a b tree : Tree}

namespace Tree

/-- Trees of one shape with the same texts at every node. -/
inductive SameTexts : Tree → Tree → Prop
  | leaf (same : operand.text = operand'.text) : SameTexts (.leaf operand) (.leaf operand')
  | node (same : op.text = op'.text) (lefts : SameTexts left left')
      (rights : SameTexts right right') : SameTexts (.node op left right) (.node op' left' right')

theorem SameTexts.refl (tree : Tree) : tree.SameTexts tree := by
  induction tree with
  | leaf operand => exact .leaf rfl
  | node op left right ihl ihr => exact .node rfl ihl ihr

theorem SameTexts.postorder (same : a.SameTexts b) :
    a.postorder.map Token.text = b.postorder.map Token.text := by
  induction same with
  | leaf same => simp [Tree.postorder,same]
  | node same _ _ ihl ihr => simp [Tree.postorder,same,ihl,ihr]

theorem postorder_ne_nil (tree : Tree) : tree.postorder ≠ [] := by
  cases tree <;> simp [postorder]

end Tree

namespace Token

theorem splitOn_spell (someToken : tokens ≠ []) (solid : ∀ token ∈ tokens, ' ' ∉ token.text) :
    (spell tokens).splitOn ' ' = tokens.map Token.text :=
  List.splitOn_intercalate ' ' (by simpa using solid) (by simpa using someToken)

theorem eq_of_texts (reads : ∀ token ∈ tokens, tokenize token.text = .ok [token])
    (othersRead : ∀ token ∈ others, tokenize token.text = .ok [token])
    (same : tokens.map Token.text = others.map Token.text) : tokens = others := by
  have reread : tokens.map (fun token => tokenize token.text) =
      others.map fun token => tokenize token.text := by
    simpa [Function.comp_def] using congrArg (List.map tokenize) same
  rw [List.map_congr_left reads,List.map_congr_left othersRead] at reread
  have injective : Function.Injective fun token : Token => Except.ok (ε := Failure) [token] :=
    fun first second same => by simpa using same
  exact List.map_injective_iff.mpr injective reread

def isOutside (c : Char) : Bool := c != '(' && c != ')'

theorem Plain.filter_isOutside (plain : Plain token) :
    token.text.filter isOutside = if token.isParenthesis then [] else token.text := by
  cases plain with
  | identifier _ all | integer _ all =>
    refine List.filter_eq_self.mpr fun c member => ?_
    have inside := all c member
    rw [isOutside,Bool.and_eq_true,bne_iff_ne,bne_iff_ne]
    constructor <;> rintro rfl <;> cases inside
  | lparen | rparen => rfl
  | operator op => cases op <;> rfl

theorem Lexed.filter_isOutside (lexed : Lexed tokens) : ∀ token ∈ tokens,
    token.text.filter isOutside = if token.isParenthesis then [] else token.text := by
  intro token member
  cases lexed with
  | plain plain => exact (plain token member).filter_isOutside
  | @signed first rest sign anOperand plain =>
    rcases List.mem_cons.mp member with rfl | member
    · have signed : isOutside sign.toChar = true := by cases sign <;> rfl
      have noParenthesis := isParenthesis_of_isOperand anOperand
      have word := (plain first List.mem_cons_self).filter_isOutside
      have whole : (first.withSign (some sign)).isParenthesis = false := noParenthesis
      rw [if_neg (by simp [noParenthesis])] at word
      rw [if_neg (by simp [whole])]
      simp [withSign,signed,word]
    · exact (plain token (List.mem_cons_of_mem _ member)).filter_isOutside

theorem flatMap_ungrouped (parts : ∀ token ∈ tokens,
      token.text.filter isOutside = if token.isParenthesis then [] else token.text) :
    (ungrouped tokens).flatMap Token.text = (tokens.flatMap Token.text).filter isOutside := by
  induction tokens with
  | nil => rfl
  | cons token rest ih =>
    obtain ⟨here,later⟩ := List.forall_mem_cons.mp parts
    rw [List.flatMap_cons,List.filter_append,here,← ih later,ungrouped,List.filter_cons]
    cases token.isParenthesis <;> rfl

end Token

/-- A text without its blanks and parentheses, with one sign for each run of signs. -/
def Text.ungrouped (text : Text) : Text :=
  ((Sign.collapse text).filter (!isBlank ·)).filter Token.isOutside

theorem Token.flatMap_ungrouped_of_tokenize (read : tokenize text = .ok tokens) :
    (Grammar.ungrouped tokens).flatMap Token.text = text.ungrouped := by
  rw [flatMap_ungrouped (lexed_of_tokenize read).filter_isOutside,(cut_of_tokenize read).visible]
  rfl

theorem Staged.parses (staged : Staged text tokens ordered) :
    ∃ tree, Parses .sum tokens tree ∧ ordered = tree.postorder := by
  obtain ⟨tree,parses,_,isPostorder⟩ := Stages.tree_of_ofText (Stages.ofText_of_staged staged)
  exact ⟨tree,parses,isPostorder⟩

theorem postorder_eq_of_spell (lexed : Token.Lexed tokens) (othersLexed : Token.Lexed others)
    (parses : Parses .sum tokens a) (othersParse : Parses .sum others b)
    (same : Token.spell a.postorder = Token.spell b.postorder) : a = b := by
  have member := parses.mem_of_mem_postorder
  have otherMember := othersParse.mem_of_mem_postorder
  have solid {tokens : List Token} (lexed : Token.Lexed tokens) :
      ∀ token ∈ tokens, ' ' ∉ token.text := by
    intro token member blank
    cases lexed.solid token member ' ' blank
  have texts : a.postorder.map Token.text = b.postorder.map Token.text := by
    rw [← Token.splitOn_spell a.postorder_ne_nil fun token inside => solid lexed token (member token inside),
      ← Token.splitOn_spell b.postorder_ne_nil fun token inside =>
        solid othersLexed token (otherMember token inside),same]
  have ordered := Token.eq_of_texts (fun token inside => lexed.tokenize_text (member token inside))
    (fun token inside => othersLexed.tokenize_text (otherMember token inside)) texts
  exact Tree.postorder_injective parses.formed othersParse.formed ordered

theorem toPostfix_unambiguous (staged : Staged text tokens ordered)
    (otherStaged : Staged other others reordered) :
    ∃ tree second, (∀ any, Parses .sum tokens any ↔ any = tree) ∧
      (∀ any, Parses .sum others any ↔ any = second) ∧
      (Token.spell ordered = Token.spell reordered ↔ tree.SameTexts second) ∧
      (Token.spell ordered = Token.spell reordered →
        tree = second ∧ ungrouped tokens = ungrouped others ∧ text.ungrouped = other.ungrouped) := by
  obtain ⟨tree,parses,rfl⟩ := staged.parses
  obtain ⟨second,othersParse,rfl⟩ := otherStaged.parses
  have only {tokens : List Token} {tree : Tree} (parses : Parses .sum tokens tree) (any : Tree) :
      Parses .sum tokens any ↔ any = tree := ⟨parses.unique,fun same => same ▸ parses⟩
  have sameTree := postorder_eq_of_spell (Token.lexed_of_tokenize staged.read)
    (Token.lexed_of_tokenize otherStaged.read) parses othersParse
  refine ⟨tree,second,only parses,only othersParse,⟨fun same => ?_,fun same => ?_⟩,fun same => ?_⟩
  · rw [sameTree same]
    exact .refl second
  · rw [Token.spell,Token.spell,same.postorder]
  · have alike := sameTree same
    have plainly : ungrouped tokens = ungrouped others := by
      rw [← parses.inorder_eq,← othersParse.inorder_eq,alike]
    refine ⟨alike,plainly,?_⟩
    rw [← Token.flatMap_ungrouped_of_tokenize staged.read,plainly,
      Token.flatMap_ungrouped_of_tokenize otherStaged.read]

theorem toPostfix_unambiguous_of_layouts :
    let text : Text := "- -8 - (x*2)".toList
    let other : Text := "+8-((x) * 2)".toList
    let shown : Text := "+8 x 2 * -".toList
    ∃ tokens others ordered reordered, Staged text tokens ordered ∧ Staged other others reordered ∧
      Token.spell ordered = shown ∧ Token.spell reordered = shown ∧
      ∃ tree, (∀ any, Parses .sum tokens any ↔ any = tree) ∧
        ∀ any, Parses .sum others any ↔ any = tree := by
  intro text other shown
  have staged : Staged text _ _ := ⟨rfl,by decide,rfl⟩
  have otherStaged : Staged other _ _ := ⟨rfl,by decide,rfl⟩
  obtain ⟨tree,second,only,otherOnly,_,alike⟩ := toPostfix_unambiguous staged otherStaged
  obtain ⟨rfl,_⟩ := alike rfl
  exact ⟨_,_,_,_,staged,otherStaged,rfl,rfl,tree,only,otherOnly⟩

end Reckoner
