/-!
# Exchanges

A talk with somebody who answers: question after question, each of which may depend on the answers
before it, and a result. An exchange comes to an end whatever the answers are.
-/

namespace Settlement

/-- A row of questions of type `Q` with answers of type `R`, and a result. -/
inductive Exchange (Q R A : Type) where
  | done (a : A)
  | ask (question : Q) (next : R → Exchange Q R A)

namespace Exchange

variable {Q R A B S : Type}

/-- Goes on with another exchange that depends on the result. -/
def andThen (f : A → Exchange Q R B) : Exchange Q R A → Exchange Q R B
  | done a => f a
  | ask question next => ask question fun r => (next r).andThen f

def map (f : A → B) (e : Exchange Q R A) : Exchange Q R B := e.andThen fun a => done (f a)

/-- The result when `answer` answers, which may change its mind from question to question, and its
state at the end. -/
def run (answer : S → Q → R × S) : S → Exchange Q R A → A × S
  | s, done a => (a, s)
  | s, ask question next =>
    let (r, s) := answer s question
    run answer s (next r)

/-- The result when `answer` answers, and the questions that were asked, in their order. -/
def transcript (answer : Q → R) : Exchange Q R A → A × List Q
  | done a => (a, [])
  | ask question next =>
    let (a, questions) := (next (answer question)).transcript answer
    (a, question :: questions)

theorem run_andThen (answer : S → Q → R × S) (f : A → Exchange Q R B) (s : S)
    (e : Exchange Q R A) :
    run answer s (e.andThen f) =
      run answer (run answer s e).2 (f (run answer s e).1) := by
  induction e generalizing s with
  | done a => rfl
  | ask question next ih => exact ih _ _

/-- What one exchange asks and then another that depends on its result. -/
theorem transcript_andThen (answer : Q → R) (f : A → Exchange Q R B) (e : Exchange Q R A) :
    (e.andThen f).transcript answer =
      (((f (e.transcript answer).1).transcript answer).1,
        (e.transcript answer).2 ++ ((f (e.transcript answer).1).transcript answer).2) := by
  induction e with
  | done a => rfl
  | ask question next ih => simp [andThen, transcript, ih]

end Exchange

end Settlement
