import Reckoner.Conversation
import Reckoner.Proofs.Session.Transcript

/-!
# The reading loop

A conversation keeps the transcript of the lines that are read. What it writes besides is one
prompt for each of them and, unless one ends the session, one more: `Conversation.read_eq`. The
program listens to its input as it comes in, up to one line feed after another, and what it
delivers each time makes up what a reading of the whole says: `Conversation.deliveries_eq`.
-/

namespace Reckoner.Conversation

open Line Session

variable {prompt : Text} {talk : Conversation}

theorem hear_ended (talk : Conversation) (line : Text) : (talk.hear line).ended = isLast line :=
  talk.session.handle_terminate line

theorem read_nil (prompt : Text) (talk : Conversation) : talk.read prompt [] = talk.ask prompt := rfl

/-- One turn of the loop: ask, read, answer, and stop or go on. -/
theorem read_cons (prompt : Text) (talk : Conversation) (line : Text) (rest : List Text) :
    talk.read prompt (line :: rest) =
      let heard := (talk.ask prompt).hear line
      if isLast line then heard else heard.read prompt rest := by
  rw [read,listen,hear_ended]
  rfl

theorem read_eq (prompt : Text) (talk : Conversation) (going : talk.ended = false) (lines : List Text) :
    let transcript := talk.session.run lines
    talk.read prompt lines = {
      session := transcript.session
      exchanges := talk.exchanges ++ (heard lines).zip transcript.replies
      stdout := talk.stdout ++ transcript.replies.flatMap (fun reply => prompt ++ reply.echo) ++
        if lines.any isLast then [] else prompt
      ended := lines.any isLast } := by
  induction lines generalizing talk with
  | nil => simp [read_nil,ask,run,heard,going]
  | cons line rest ih =>
    have turn := hear_ended (talk.ask prompt) line
    cases last : isLast line with
    | true => simp [read_cons,last,run,handle_terminate,heard_cons,hear,ask]
    | false =>
      have later := ih ((ask prompt talk).hear line) (turn.trans last)
      rw [read_cons,last]
      simp only [Bool.false_eq_true,if_false,later]
      simp [run,handle_terminate,last,heard_cons,hear,ask]

theorem replies_read (prompt : Text) (talk : Conversation) (going : talk.ended = false)
    (lines : List Text) :
    (talk.read prompt lines).replies = talk.replies ++ (talk.session.run lines).replies := by
  have paired : ((heard lines).zip (talk.session.run lines).replies).map Prod.snd =
      (talk.session.run lines).replies := by
    apply List.map_snd_zip
    rw [run_eq,List.length_map,length_answers]
  rw [read_eq prompt talk going,replies,List.map_append,paired]
  rfl

/-- A loop that stops for want of lines is taken up where it stopped. -/
theorem listen_append (prompt : Text) (talk : Conversation) (going : talk.ended = false)
    (front back : List Text) :
    talk.listen prompt (front ++ back) =
      let first := talk.listen prompt front
      if first.ended then first else first.listen prompt back := by
  induction front generalizing talk with
  | nil => simp [listen,going]
  | cons line front ih =>
    rw [List.cons_append,listen,listen]
    cases last : (talk.hear line).ended with
    | true => simp [last]
    | false => simpa using ih ((talk.hear line).ask prompt) last

/-- What was said before stays in front. -/
def followedBy (talk later : Conversation) : Conversation :=
  { later with exchanges := talk.exchanges ++ later.exchanges, stdout := talk.stdout ++ later.stdout }

variable {later : Conversation}

theorem followedBy_delivered (talk : Conversation) : talk.followedBy talk.delivered = talk := by
  simp [followedBy,delivered]

theorem ask_followedBy (prompt : Text) (talk later : Conversation) :
    (talk.followedBy later).ask prompt = talk.followedBy (later.ask prompt) := by
  simp [followedBy,ask]

theorem hear_followedBy (talk later : Conversation) (line : Text) :
    (talk.followedBy later).hear line = talk.followedBy (later.hear line) := by
  simp [followedBy,hear]

/-- The loop does not depend on what was said before. -/
theorem listen_followedBy (prompt : Text) (talk later : Conversation) (lines : List Text) :
    (talk.followedBy later).listen prompt lines = talk.followedBy (later.listen prompt lines) := by
  induction lines generalizing later with
  | nil => rfl
  | cons line rest ih =>
    rw [listen,listen,hear_followedBy]
    change (if (later.hear line).ended then _ else _) = _
    split
    next => rfl
    next => rw [ask_followedBy,ih]

theorem listen_delivered (prompt : Text) (talk : Conversation) (lines : List Text) :
    talk.listen prompt lines = talk.followedBy (talk.delivered.listen prompt lines) := by
  rw [← listen_followedBy,followedBy_delivered]

/-- What is delivered where the input comes in pieces, at the start and after each of them. -/
def deliveries (prompt : Text) (talk : Conversation) : List Text → List Conversation
  | [] => [talk]
  | piece :: rest =>
    talk :: if talk.ended then []
      else (talk.delivered.listen prompt (Text.lines piece)).deliveries prompt rest

theorem deliveries_of_ended (prompt : Text) (ended : talk.ended = true) (pieces : List Text) :
    talk.deliveries prompt pieces = [talk] := by
  cases pieces with
  | nil => rfl
  | cons => rw [deliveries,if_pos ended]

/-- Each piece but the last being what is up to a line feed, the deliveries make up what is said
where the input is read as a whole. -/
theorem deliveries_eq (prompt : Text) (talk : Conversation) (going : talk.ended = false)
    (pieces : List Text) (last : Text) :
    let said := talk.deliveries prompt (pieces.map (· ++ ['\n']) ++ [last])
    let whole := talk.listen prompt (Text.unlines pieces ++ last).lines
    said.flatMap stdout = whole.stdout ∧ said.flatMap exchanges = whole.exchanges := by
  induction pieces generalizing talk with
  | nil =>
    rw [listen_delivered]
    simp [deliveries,going,followedBy,Text.unlines]
  | cons piece rest ih =>
    have parts : Text.unlines (piece :: rest) ++ last =
        piece ++ '\n' :: (Text.unlines rest ++ last) := by simp [Text.unlines]
    rw [parts,Text.lines_append_feed,listen_delivered,listen_append prompt talk.delivered going]
    simp only [List.map_cons,List.cons_append,deliveries,going,Bool.false_eq_true,if_false,
      List.flatMap_cons]
    cases stops : (talk.delivered.listen prompt (Text.lines (piece ++ ['\n']))).ended with
    | true => simp [deliveries_of_ended prompt stops,followedBy]
    | false =>
      obtain ⟨written,exchanged⟩ := ih _ stops
      simp [written,exchanged,followedBy]

end Reckoner.Conversation
