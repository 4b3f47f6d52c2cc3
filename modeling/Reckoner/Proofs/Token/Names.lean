import Reckoner.Proofs.Sign.Collapse
import Reckoner.Proofs.Token.Reading

/-!
# Names in a text

The names that a text mentions are its maximal runs of letters. Collapsing its signs leaves them
as they are, and they are the identifiers among its words. So what is looked up by name is named
in the text: `Token.bare_mem_names`.
-/

namespace Reckoner

/-- The names that a text mentions: its maximal runs of letters. -/
def Text.names (text : Text) : List Text :=
  (text.splitOnP fun c => !c.isAlpha).filter fun run => !run.isEmpty

namespace Text

variable {c : Char} {name front back : Text}

theorem names_append_cons (other : c.isAlpha = false) (front back : Text) :
    names (front ++ c :: back) = front.names ++ back.names := by
  rw [names,List.splitOnP_append_cons _ _ (by simp [other]),List.filter_append]
  rfl

theorem names_cons (other : c.isAlpha = false) (back : Text) : names (c :: back) = back.names :=
  names_append_cons other [] back

theorem names_append (others : ∀ c ∈ front, c.isAlpha = false) (back : Text) :
    names (front ++ back) = back.names := by
  induction front with
  | nil => rfl
  | cons c front ih =>
    obtain ⟨here,later⟩ := List.forall_mem_cons.mp others
    rw [List.cons_append,names_cons here,ih later]

theorem names_word (someLetter : name ≠ []) (letters : ∀ c ∈ name, c.isAlpha = true)
    (ends : ∀ c ∈ back.head?, c.isAlpha = false) : names (name ++ back) = name :: back.names := by
  have alone : name.names = [name] := by
    rw [names,List.splitOnP_eq_singleton fun c member => by simp [letters c member]]
    simp [someLetter]
  cases back with
  | nil => rw [List.append_nil,alone]; rfl
  | cons c back =>
    have other := ends c rfl
    rw [names_append_cons other,alone,names_cons other,List.singleton_append]

/-- Signs and blanks are no letters, so a run of signs parts names as its one sign does. -/
theorem names_append_collapseFrom (front text : Text) :
    names (front ++ Sign.collapse text) = names (front ++ text) ∧
      ∀ run, names (front ++ Sign.collapseFrom (some run) text) = front.names ++ text.names := by
  have noLetter (sign : Sign) : sign.toChar.isAlpha = false := by cases sign <;> rfl
  induction text generalizing front with
  | nil => exact ⟨rfl,fun run => names_append_cons (noLetter run) front []⟩
  | cons c rest ih =>
    cases signed : isSign c with
    | true =>
      obtain ⟨sign,rfl⟩ := isSign_iff.mp signed
      have other := noLetter sign
      refine ⟨?_,fun run => ?_⟩
      · rw [Sign.collapse,Sign.collapseFrom_none_sign,(ih front).2,names_append_cons other]
      · rw [Sign.collapseFrom_some_sign,(ih front).2,names_cons other]
    | false =>
      have goesOn (front : Text) :
          names (front ++ c :: Sign.collapse rest) = names (front ++ c :: rest) := by
        rw [List.append_cons,(ih _).1,← List.append_cons]
      refine ⟨?_,fun run => ?_⟩
      · rw [Sign.collapse,Sign.collapseFrom_none_other signed]
        exact goesOn front
      · cases blank : isBlank c with
        | true =>
          rw [Sign.collapseFrom_some_blank blank,(ih front).2,names_cons (isAlpha_of_isBlank blank)]
        | false =>
          rw [Sign.collapseFrom_some_other signed blank,names_append_cons (noLetter run)]
          exact congrArg (front.names ++ ·) (goesOn [])

theorem names_collapse (text : Text) : names (Sign.collapse text) = text.names :=
  (names_append_collapseFrom [] text).1

end Text

namespace Token

variable {text : Text} {tokens : List Token} {token : Token}

theorem not_isAlpha_of_chain {c : Char} {rest : Text} (other : c.isAlpha = false)
    (chain : (c :: rest).IsChain fun a b => joins a b = true) :
    ∀ d ∈ c :: rest, d.isAlpha = false := by
  cases digit : c.isDigit with
  | true =>
    intro d member
    by_contra letter
    have number := isDigit_of_chain digit chain d member
    simp [isDigit_of_isAlpha (by simpa using letter)] at number
  | false =>
    obtain rfl := eq_nil_of_chain other digit chain
    exact List.forall_mem_singleton.mpr other

theorem kindOf?_ne_identifier {c : Char} (other : c.isAlpha = false) :
    kindOf? c ≠ some .identifier := by
  simp only [kindOf?,other,Bool.false_eq_true,if_false]
  split_ifs <;> simp

theorem names_flatten {words : List Text}
    (lexed : ∀ word ∈ words, word ≠ [] ∧ word.IsChain fun a b => joins a b = true)
    (apart : words.IsChain fun a b => ∃ ha hb, joins (a.getLast ha) (b.head hb) = false) :
    Text.names words.flatten =
      ((words.filterMap ofWord?).filter (·.kind = .identifier)).map Token.text := by
  induction words with
  | nil => rfl
  | cons word words ih =>
    obtain ⟨⟨someChar,chain⟩,others⟩ := List.forall_mem_cons.mp lexed
    obtain ⟨c,rest,rfl⟩ := List.exists_cons_of_ne_nil someChar
    have later := ih others apart.tail
    rw [List.flatten_cons]
    cases letter : c.isAlpha with
    | true =>
      have letters := isAlpha_of_chain letter chain
      have ends : ∀ d ∈ words.flatten.head?, d.isAlpha = false := by
        intro d head
        have last := List.getLast?_eq_some_getLast someChar
        have cut := joins_flatten apart _ last d head
        by_contra joined
        simp [joins,letters _ (List.getLast_mem _),joined] at cut
      rw [Text.names_word someChar letters ends,later]
      simp [ofWord?,kindOf?_of_isAlpha letter]
    | false =>
      rw [Text.names_append (not_isAlpha_of_chain letter chain),later]
      cases kinds : kindOf? c with
      | none => simp [ofWord?,kinds]
      | some kind =>
        have other : kind ≠ .identifier := fun same => kindOf?_ne_identifier letter (same ▸ kinds)
        simp [ofWord?,kinds,other]

theorem names_scan (text : Text) :
    text.names = ((scan text).filter (·.kind = .identifier)).map Token.text := by
  have lexed : ∀ word ∈ text.splitBy joins, word ≠ [] ∧ word.IsChain fun a b => joins a b = true :=
    fun word member => ⟨List.ne_nil_of_mem_splitBy member,List.isChain_of_mem_splitBy member⟩
  have named := names_flatten lexed (List.isChain_getLast_head_splitBy joins text)
  rwa [List.flatten_splitBy] at named

theorem exists_mem_of_mem_attachSign (member : token ∈ attachSign tokens) :
    ∃ sign, ∃ word ∈ tokens, token = word.withSign sign := by
  rcases attachSign_cases tokens with ⟨sign,first,rest,rfl,_,attaches⟩ | ⟨same,_⟩
  · rw [attaches] at member
    rcases List.mem_cons.mp member with rfl | member
    · exact ⟨some sign,first,by simp,rfl⟩
    · exact ⟨none,token,by simp [member],rfl⟩
  · rw [same] at member
    exact ⟨none,token,member,rfl⟩

theorem bare_mem_names (read : tokenize text = .ok tokens) (member : token ∈ tokens)
    (identifier : token.kind = .identifier) : token.bare ∈ text.names := by
  obtain ⟨_,rfl⟩ := tokenize_eq_ok_iff.mp read
  obtain ⟨sign,word,scanned,rfl⟩ := exists_mem_of_mem_attachSign member
  have anOperand : word.isOperand = true := isOperand_iff.mpr (.inl identifier)
  rw [(plain_of_mem_scan scanned).bare_withSign anOperand,← Text.names_collapse,names_scan]
  exact List.mem_map.mpr ⟨word,by simpa [scanned] using identifier,rfl⟩

end Token
end Reckoner
