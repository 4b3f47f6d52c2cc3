import Reckoner.CommandLine
import Reckoner.Markup
import Reckoner.Proofs.Session.Conversation

/-!
# The two front ends

Lines given as arguments and lines read from the input make one session: the same replies, from
the same states, with the same trace. Only the exit code and the summary tell of failures in the
one, and only the prompt is shown in the other.
-/

namespace Reckoner

theorem Text.unlines_filterMap_output (replies : List Reply) :
    unlines (replies.filterMap Reply.output) =
      replies.flatMap fun reply => unlines reply.output.toList := by
  induction replies with
  | nil => rfl
  | cons reply rest ih =>
    cases output : reply.output with
    | none => simpa [output,unlines] using ih
    | some text => simpa [output,unlines] using ih

namespace Request

variable {lines : List Text}

theorem session_converse (environment : Environment) (prompt : Option Text) (trace : Bool)
    (lines : List Text) :
    (converse prompt trace).session environment =
      ((evaluate lines trace).session environment).prompted
        (prompt.getD (Settings.ofEnvironment .unlimited environment).prompt) := rfl

/-- Both front ends answer lines up to the first that ends the session. A conversation shows its
prompt before each read, so once more at the end of the input if no line ends the session. -/
theorem frontEnds_agree (render : TraceLine → Text) (environment : Environment) (prompt : Option Text)
    (trace : Bool) (stdin : Text) (whole : ∀ line ∈ lines, ∀ c ∈ line, c ≠ '\n' ∧ c ≠ '\r') :
    let batch := (evaluate lines trace).session environment
    let shown := prompt.getD (Settings.ofEnvironment .unlimited environment).prompt
    let replies := (batch.answers (Session.heard lines)).map Prod.fst
    let failed := replies.countP (!·.ok)
    let traced := (replies.flatMap Reply.trace).map render
    let talk := Conversation.read shown { session := (converse prompt trace).session environment }
      (Text.unlines lines).lines
    (evaluate lines trace).execute render environment stdin = {
      exit := if failed = 0 then 0 else 1
      stdout := replies.flatMap fun reply => Text.unlines reply.output.toList
      stderr := Text.unlines (traced ++
        if failed = 0 then [] else [Numeral.digits failed ++ " line(s) failed".toList]) } ∧
    (converse prompt trace).execute render environment (Text.unlines lines) = {
      exit := 0
      stdout := replies.flatMap (fun reply => shown ++ Text.unlines reply.output.toList) ++
        if lines.any Line.isLast then [] else shown
      stderr := Text.unlines traced } ∧
    talk.exchanges = (Session.heard lines).zip replies ∧
    talk.session = (batch.after (Session.heard lines)).prompted shown := by
  intro batch shown replies failed traced talk
  have evaluated : (batch.run lines).replies = replies := by rw [batch.run_eq]
  have same : (converse prompt trace).session environment = batch.prompted shown :=
    session_converse environment prompt trace lines
  have conversed : (batch.prompted shown).run lines =
      ⟨replies,(batch.after (Session.heard lines)).prompted shown⟩ := by
    rw [Session.run_prompted,Session.run_eq]
  have read : talk = Conversation.read shown { session := batch.prompted shown } lines := by
    simp only [talk,same,Text.lines_unlines lines whole]
  have replied : talk.replies = replies := by
    rw [read,Conversation.replies_read shown _ rfl lines,conversed]
    rfl
  rw [Conversation.read_eq shown _ rfl lines,conversed] at read
  refine ⟨?_,?_,by rw [read]; rfl,by rw [read]⟩
  · have failures : (batch.run lines).failures = failed := by rw [Transcript.failures,evaluated]
    have echoed : (batch.run lines).echoed = replies.filterMap Reply.output := by
      rw [Transcript.echoed,evaluated]
    have recorded : (batch.run lines).trace = replies.flatMap Reply.trace := by
      rw [Transcript.trace,evaluated]
    simp only [execute,Transcript.summary]
    rw [failures,echoed,recorded,Text.unlines_filterMap_output]
  · change Outcome.mk 0 talk.stdout (Text.unlines (talk.trace.map render)) = _
    rw [Conversation.trace,replied,read]
    rfl

theorem frontEnds_agree_on_failures :
    let lines := ["-x".toList,"x = -3".toList,"  ".toList," /exit ".toList,"x".toList]
    let environment := [(Settings.promptVariable,"? ".toList)]
    let account := "> -x\n  normalized: -x\n  tokens: -x\n  postfix: -x\n  failed: unknown-variable\n".toList
    (∀ line ∈ lines, ∀ c ∈ line, c ≠ '\n' ∧ c ≠ '\r') ∧
      (evaluate lines true).execute Markup.render environment [] = {
        exit := 1
        stdout := "Unknown variable\nBye!\n".toList
        stderr := account ++ "1 line(s) failed\n".toList } ∧
      (converse none true).execute Markup.render environment (Text.unlines lines) = {
        exit := 0
        stdout := "? Unknown variable\n? ? ? Bye!\n".toList
        stderr := account } := by
  intro lines environment account
  have whole : ∀ line ∈ lines, ∀ c ∈ line, c ≠ '\n' ∧ c ≠ '\r' := by simp [lines]
  obtain ⟨batch,talk,_⟩ := frontEnds_agree Markup.render environment none true [] whole
  refine ⟨whole,batch.trans ?_,talk.trans ?_⟩
  · decide +kernel
  · decide +kernel

end Request
end Reckoner
