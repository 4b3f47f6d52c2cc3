import Reckoner.Tree
import Reckoner.Proofs.Numeral.Decimal
import Reckoner.Proofs.Token.Reading

/-!
# Meaning

What an expression evaluates to, told by rules: a value, or a kind of failure and its message.
The rules name no step of the evaluation, and `Tree.evaluates_iff_value` says that they give
every tree that is read from a text exactly one outcome, the one that is computed.
-/

namespace Reckoner

/-- A value, or the kind and the message of a failure. -/
abbrev Told := Except (Failure.Kind × Text) Int

def Failure.told (failure : Failure) : Failure.Kind × Text := (failure.kind,failure.message)

def Told.fault (message : String) : Told := .error (.arithmeticFault,message.toList)

/-- The value of an operand: that of its digits or of its name, negated after a minus sign. -/
inductive Denotes (context : Context) : Token → Told → Prop
  | literal {sign : Option Sign} (someDigit : digits ≠ [])
      (all : ∀ c ∈ digits, c.isDigit = true)
      (admitted : context.digitLimit.admits digits.length = true) :
      Denotes context (Token.withSign sign ⟨.integer,digits⟩)
        (.ok (if sign = some .minus then -Numeral.decimal digits else Numeral.decimal digits))
  | long {sign : Option Sign} (someDigit : digits ≠ []) (all : ∀ c ∈ digits, c.isDigit = true)
      (refused : context.digitLimit.admits digits.length = false) :
      Denotes context (Token.withSign sign ⟨.integer,digits⟩) (Told.fault "Number too long")
  | bound {sign : Option Sign} (someLetter : name ≠ []) (all : ∀ c ∈ name, c.isAlpha = true)
      (binds : context.bindings.get? name = some n) :
      Denotes context (Token.withSign sign ⟨.identifier,name⟩)
        (.ok (if sign = some .minus then -n else n))
  | unbound {sign : Option Sign} (someLetter : name ≠ []) (all : ∀ c ∈ name, c.isAlpha = true)
      (free : context.bindings.get? name = none) :
      Denotes context (Token.withSign sign ⟨.identifier,name⟩)
        (.error (.unknownVariable,"Unknown variable".toList))

/-- What an operator makes of two integers. A quotient `q` is truncated toward zero: what it
leaves is smaller than the divisor and lies on the side of the dividend. -/
inductive Computes (resultBits : Int) : Operator → Int → Int → Told → Prop
  | sum : Computes resultBits .add a b (.ok (a + b))
  | difference : Computes resultBits .sub a b (.ok (a - b))
  | product : Computes resultBits .mul a b (.ok (a * b))
  | zeroDivisor : Computes resultBits .div a 0 (Told.fault "Division by zero")
  | quotient (divides : a = b * q + r) (small : r.natAbs < b.natAbs) (side : 0 ≤ a * r) :
      Computes resultBits .div a b (.ok q)
  | negativeExponent (negative : b < 0) : Computes resultBits .pow a b (Told.fault "Negative exponent")
  | largeExponent (large : 2 ^ 31 ≤ b) : Computes resultBits .pow a b (Told.fault "Exponent too large")
  | largeResult (natural : 0 ≤ b) (moderate : b < 2 ^ 31) (grows : 1 < a.natAbs)
      (large : PowerSize.fits resultBits a.natAbs b.toNat = false) :
      Computes resultBits .pow a b (Told.fault "Result too large")
  | power (natural : 0 ≤ b) (moderate : b < 2 ^ 31)
      (fits : 1 < a.natAbs → PowerSize.fits resultBits a.natAbs b.toNat = true) :
      Computes resultBits .pow a b (.ok (a ^ b.toNat))

/-- The outcome of a tree: the left side counts first, then the right side, then the operator,
and the first failure is that of the whole. -/
inductive Evaluates (context : Context) : Tree → Told → Prop
  | leaf (denotes : Denotes context token told) : Evaluates context (.leaf token) told
  | left (fails : Evaluates context left (.error fault)) :
      Evaluates context (.node token left right) (.error fault)
  | right (first : Evaluates context left (.ok a)) (fails : Evaluates context right (.error fault)) :
      Evaluates context (.node token left right) (.error fault)
  | node {op : Operator} (names : token.text = op.text) (first : Evaluates context left (.ok a))
      (second : Evaluates context right (.ok b)) (computes : Computes context.resultBits op a b told) :
      Evaluates context (.node token left right) told

/-- A quotient truncated toward zero is the only one that leaves a small enough rest on the side
of the dividend. -/
theorem tdiv_of_rest {a b q r : Int} (divides : a = b * q + r) (small : r.natAbs < b.natAbs)
    (side : 0 ≤ a * r) : a.tdiv b = q := by
  have nonzero : b ≠ 0 := by omega
  rcases lt_trichotomy a 0 with negative | rfl | positive
  · have below : r ≤ 0 := nonpos_of_mul_nonneg_right side negative
    exact ((Int.tdiv_tmod_unique' negative.le nonzero).mpr ⟨by omega,by omega,below⟩).1
  · have smallProduct : (b * q).natAbs < b.natAbs := by omega
    have zero : q = 0 := by
      by_contra some
      have grows := Nat.le_mul_of_pos_right b.natAbs (Int.natAbs_pos.mpr some)
      rw [Int.natAbs_mul] at smallProduct
      omega
    simp [zero]
  · have above : 0 ≤ r := nonneg_of_mul_nonneg_right side positive
    exact ((Int.tdiv_tmod_unique positive.le nonzero).mpr ⟨by omega,above,by omega⟩).1

theorem computes_divide {resultBits a b : Int} :
    Computes resultBits .div a b ((divide a b).mapError Failure.told) := by
  by_cases zero : b = 0
  · subst zero
    exact .zeroDivisor
  · have side : 0 ≤ a * a.tmod b := by
      rcases le_total 0 a with natural | negative
      · exact mul_nonneg natural (Int.tmod_nonneg b natural)
      · have below := Int.tmod_nonneg b (neg_nonneg.mpr negative)
        rw [Int.neg_tmod] at below
        exact mul_nonneg_of_nonpos_of_nonpos negative (neg_nonneg.mp below)
    have small : (a.tmod b).natAbs < b.natAbs := by
      rw [Int.natAbs_tmod]
      exact Nat.mod_lt _ (Int.natAbs_pos.mpr zero)
    rw [divide,if_neg zero]
    exact .quotient (Int.mul_tdiv_add_tmod a b).symm small side

theorem computes_power {resultBits a b : Int} :
    Computes resultBits .pow a b ((power resultBits a b).mapError Failure.told) := by
  rw [power,maxExponent]
  split
  next negative => exact .negativeExponent negative
  next natural =>
    split
    next large => exact .largeExponent (by omega)
    next moderate =>
      split
      next refused =>
        simp only [Bool.and_eq_true,decide_eq_true_eq,Bool.not_eq_true'] at refused
        exact .largeResult (by omega) (by omega) refused.1 refused.2
      next admitted =>
        apply Computes.power (by omega) (by omega)
        intro grows
        simpa [grows] using admitted

theorem Computes.apply (computes : Computes resultBits op a b told) :
    (op.apply resultBits a b).mapError Failure.told = told := by
  cases computes with
  | sum | difference | product | zeroDivisor => rfl
  | quotient divides small side =>
    have nonzero : b ≠ 0 := by omega
    simp [Operator.apply,divide,nonzero,tdiv_of_rest divides small side,Except.mapError]
  | negativeExponent negative => simp [Operator.apply,Reckoner.power,negative]; rfl
  | largeExponent large =>
    have natural : ¬ b < 0 := by omega
    have large : maxExponent < b := by rw [maxExponent]; omega
    simp [Operator.apply,Reckoner.power,natural,large]; rfl
  | largeResult natural moderate grows large =>
    have moderate : ¬ maxExponent < b := by rw [maxExponent]; omega
    simp [Operator.apply,Reckoner.power,natural.not_gt,moderate,grows,large]; rfl
  | power natural moderate fits =>
    have moderate : ¬ maxExponent < b := by rw [maxExponent]; omega
    have admitted : (1 < a.natAbs && !PowerSize.fits resultBits a.natAbs b.toNat) = false := by
      simpa using fits
    simp [Operator.apply,Reckoner.power,natural.not_gt,moderate,admitted,Except.mapError]

theorem computes_iff_apply {resultBits a b : Int} {op : Operator} {told : Told} :
    Computes resultBits op a b told ↔ (op.apply resultBits a b).mapError Failure.told = told := by
  constructor
  · exact Computes.apply
  · rintro rfl
    cases op with
    | add => exact .sum
    | sub => exact .difference
    | mul => exact .product
    | div => exact computes_divide
    | pow => exact computes_power

theorem Context.valueOf_error {context : Context} {token : Token} {failure : Failure}
    (fails : context.valueOf token = .error failure) :
    failure = .numberTooLong ∨ failure = .unknownVariable := by
  rw [valueOf,magnitude] at fails
  split at fails
  · split at fails
    · cases fails
    · cases fails; exact .inl rfl
  · split at fails
    · cases fails
    · cases fails; exact .inr rfl

theorem Context.valueOf_integer (context : Context) (sign : Option Sign) {digits : Text}
    (someDigit : digits ≠ []) (all : ∀ c ∈ digits, c.isDigit = true) :
    context.valueOf (Token.withSign sign ⟨.integer,digits⟩) =
      if context.digitLimit.admits digits.length then
        .ok ((sign.getD .plus).apply (Numeral.decimal digits))
      else .error .numberTooLong := by
  have plain := Token.Plain.integer someDigit all
  rw [valueOf,magnitude,Token.withSign_kind,if_pos rfl,plain.bare_withSign rfl,
    plain.sign_withSign rfl,Numeral.read?_digits _ someDigit all]
  cases context.digitLimit.admits digits.length <;> rfl

theorem Context.valueOf_identifier (context : Context) (sign : Option Sign) {name : Text}
    (someLetter : name ≠ []) (all : ∀ c ∈ name, c.isAlpha = true) :
    context.valueOf (Token.withSign sign ⟨.identifier,name⟩) =
      match context.bindings.get? name with
      | some n => .ok ((sign.getD .plus).apply n)
      | none => .error .unknownVariable := by
  have plain := Token.Plain.identifier someLetter all
  rw [valueOf,magnitude,Token.withSign_kind,if_neg (by simp),plain.bare_withSign rfl,
    plain.sign_withSign rfl]
  cases context.bindings.get? name <;> rfl

theorem Denotes.valueOf (denotes : Denotes context token told) :
    (context.valueOf token).mapError Failure.told = told := by
  cases denotes with
  | @literal digits sign someDigit all admitted =>
    rw [context.valueOf_integer sign someDigit all,if_pos admitted]
    rcases sign with _ | _ | _ <;> rfl
  | @long digits sign someDigit all refused =>
    rw [context.valueOf_integer sign someDigit all,refused]
    rfl
  | @bound name n sign someLetter all binds =>
    rw [context.valueOf_identifier sign someLetter all,binds]
    rcases sign with _ | _ | _ <;> rfl
  | @unbound name sign someLetter all free =>
    rw [context.valueOf_identifier sign someLetter all,free]
    rfl

theorem Token.Plain.denotes (context : Context) (plain : Plain token)
    (anOperand : token.isOperand = true) (sign : Option Sign) :
    ∃ told, Denotes context (token.withSign sign) told := by
  cases plain with
  | @integer digits someDigit all =>
    cases admits : context.digitLimit.admits digits.length with
    | true => exact ⟨_,.literal someDigit all admits⟩
    | false => exact ⟨_,.long someDigit all admits⟩
  | @identifier name someLetter all =>
    cases binds : context.bindings.get? name with
    | some n => exact ⟨_,.bound someLetter all binds⟩
    | none => exact ⟨_,.unbound someLetter all binds⟩
  | operator | lparen | rparen => cases anOperand

namespace Tree

/-- The leaves are operands as they are read and the inner nodes name operators. -/
def Lexed : Tree → Prop
  | leaf token => token.Signed
  | node token left right => (∃ op : Operator, token.text = op.text) ∧ left.Lexed ∧ right.Lexed

theorem Lexed.names {tree : Tree} (lexed : tree.Lexed) (member : token ∈ tree.postorder)
    (anOperator : token.isOperand = false) : ∃ op, Operator.ofText? token.text = some op := by
  induction tree with
  | leaf operand =>
    obtain rfl := List.mem_singleton.mp member
    obtain ⟨sign,plain,_,anOperand,rfl⟩ := lexed
    simp [anOperand] at anOperator
  | node op left right ihl ihr =>
    obtain ⟨⟨op,names⟩,lexedLeft,lexedRight⟩ := lexed
    rcases List.mem_append.mp member with below | root
    · rcases List.mem_append.mp below with first | second
      · exact ihl lexedLeft first
      · exact ihr lexedRight second
    · obtain rfl := List.mem_singleton.mp root
      exact ⟨op,Operator.ofText?_eq_some_iff.mpr names⟩

end Tree

theorem told_ok_iff {outcome : Except Failure Int} {n : Int} :
    outcome.mapError Failure.told = .ok n ↔ outcome = .ok n := by
  cases outcome <;> simp [Except.mapError]

theorem told_error_iff {outcome : Except Failure Int} {fault : Failure.Kind × Text} :
    outcome.mapError Failure.told = .error fault ↔
      ∃ failure, outcome = .error failure ∧ failure.told = fault := by
  cases outcome <;> simp [Except.mapError]

theorem Evaluates.value (evaluates : Evaluates context tree told) :
    (tree.value context).mapError Failure.told = told := by
  induction evaluates with
  | leaf denotes => exact denotes.valueOf
  | left _ ih =>
    obtain ⟨failure,fails,same⟩ := told_error_iff.mp ih
    refine told_error_iff.mpr ⟨failure,?_,same⟩
    rw [Tree.value,fails]
    rfl
  | right _ _ ihl ihr =>
    obtain ⟨failure,fails,same⟩ := told_error_iff.mp ihr
    refine told_error_iff.mpr ⟨failure,?_,same⟩
    rw [Tree.value,told_ok_iff.mp ihl,fails]
    rfl
  | node names _ _ computes ihl ihr =>
    have reads := Operator.ofText?_eq_some_iff.mpr names
    rw [Tree.value,told_ok_iff.mp ihl,told_ok_iff.mp ihr]
    simpa [applyText,reads,bind,Except.bind] using computes.apply

/-- The outcome that is computed is the one that the rules give, and they give no other. -/
theorem Tree.evaluates_iff_value {tree : Tree} (lexed : tree.Lexed) {told : Told} :
    Evaluates context tree told ↔ (tree.value context).mapError Failure.told = told := by
  refine ⟨Evaluates.value,?_⟩
  rintro rfl
  induction tree with
  | leaf token =>
    obtain ⟨sign,plain,isPlain,anOperand,rfl⟩ := lexed
    obtain ⟨told,denotes⟩ := isPlain.denotes context anOperand sign
    rw [Tree.value,denotes.valueOf]
    exact .leaf denotes
  | node token left right ihl ihr =>
    obtain ⟨⟨op,names⟩,lexedLeft,lexedRight⟩ := lexed
    have first := ihl lexedLeft
    have second := ihr lexedRight
    rw [Tree.value]
    cases outcome : left.value context with
    | error failure =>
      rw [outcome] at first
      exact .left first
    | ok a =>
      rw [outcome] at first
      cases result : right.value context with
      | error failure =>
        rw [result] at second
        exact .right first second
      | ok b =>
        rw [result] at second
        refine .node names first second (computes_iff_apply.mpr ?_)
        simp [applyText,names,bind,Except.bind]

theorem Computes.fault_kind (computes : Computes resultBits op a b (.error fault)) :
    fault.1 = .arithmeticFault := by
  cases computes <;> rfl

theorem Evaluates.fault_kind (evaluates : Evaluates context tree told) :
    ∀ fault, told = .error fault → fault.1 = .unknownVariable ∨ fault.1 = .arithmeticFault := by
  induction evaluates with
  | leaf denotes =>
    intro fault same
    cases denotes with
    | literal | bound => cases same
    | long => cases same; exact .inr rfl
    | unbound => cases same; exact .inl rfl
  | left _ ih => exact ih
  | right _ _ _ ihr => exact ihr
  | node _ _ _ computes =>
    rintro fault rfl
    exact .inr computes.fault_kind

end Reckoner
