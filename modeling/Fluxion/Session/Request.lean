import Fluxion.Session.Basic

/-!
# Requests to a session

Whatever can be asked of a session, and what is answered.  A session answers one request at a time,
and each finds the session as the one before has left it.  The surroundings are only asked for
something by the exports.
-/

namespace Fluxion

/-- What a session can be asked; functions and limits are given as they were
entered.  Files and directories are paths that the system understands. -/
inductive Request where
  | derivative (function : String)
  | derivativeMessage (function : String)
  | integral (function lower upper : String)
  | plots (function : String)
  | updatePlots (function : String)
  | analyse (function lower upper : String)
  | lastAnalysis
  | lastPlots
  | exportTable (path : String)
  | exportPlots (directory : String)

/-- What a session answers.  An export answers with its outcome, so a refusal
of the system is an answer too.  There is one form of answer for each kind of
request, but for the figures, which three kinds have. -/
inductive Answer where
  | derivative (outcome : Except Failure Derivative)
  | message (text : String)
  | integral (integral : Integral)
  | figures (outcome : Except Failure Plot.Figures)
  | analysis (analysis : Analysis)
  | lastAnalysis (analysis : Option Analysis)
  /-- whether the table is written -/
  | table (outcome : Except Failure Unit)
  /-- the paths of the files that are drawn -/
  | pictures (outcome : Except Failure (List String))

namespace Session

variable [Quadrature.NodeTable] {m : Type → Type} [Monad m]

/-- The answer to a request, and the session after it.  What an export changes
in the surroundings is no part of the session.  Every request has an answer:
none of them can end the session. -/
def perform (surroundings : Surroundings m) (session : Session) : Request → m (Answer × Session)
  | .derivative function =>
    return (.derivative ((Derivative.ofText function).mapError Failure.parsing), session)
  | .derivativeMessage function => return (.message (Derivative.messageOf function), session)
  | .integral function lower upper =>
    return (.integral (session.integral function lower upper), session)
  | .plots function => return (.figures (session.plots function), session)
  | .updatePlots function =>
    let (outcome, session) := session.updatePlots function
    return (.figures outcome, session)
  | .analyse function lower upper =>
    let (analysis, session) := session.analyse function lower upper
    return (.analysis analysis, session)
  | .lastAnalysis => return (.lastAnalysis session.lastAnalysis, session)
  | .lastPlots => return (.figures session.lastPlots, session)
  | .exportTable path => do
    return (.table (← (session.exportTable surroundings path).run), session)
  | .exportPlots directory => do
    return (.pictures (← (session.exportPlots surroundings directory).run), session)

/-- The answers to some requests in order, and the session after the last.  Each
request meets the session and the surroundings as the one before has left them. -/
def performAll (surroundings : Surroundings m) (session : Session) :
    List Request → m (List Answer × Session)
  | [] => return ([], session)
  | request :: rest => do
    let (answer, session) ← session.perform surroundings request
    let (answers, session) ← session.performAll surroundings rest
    return (answer :: answers, session)

end Session

end Fluxion
