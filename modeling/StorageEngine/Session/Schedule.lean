import StorageEngine.Session.Basic

/-!
# Taking up waiting calls

After every step each waiting call asks for its lock again.  A call that gets it runs on, and
that may let others run on in turn, so the calls are taken up in the order of their steps until
none gets any further.
-/

namespace StorageEngine.Session

/-- What becomes of a step whose call has ended. -/
def finishCall (session : Session) (name : Option String) (outcome : Outcome) :
    Response × Session :=
  match outcome.result with
  | .error failure => (.failed (failure.map .call) outcome.record, session)
  | .ok .locked => (.ok .nothing, session)
  | .ok .deleted => (.ok .nothing, session)
  | .ok (.erased pages) => (.ok (.number pages), session)
  | .ok (.tuples found) => (.ok (.tuples found), session)
  | .ok (.inserted record) =>
    (.ok (.record record), { session with records := session.records ++ record.toArray })
  | .ok (.page copy) =>
    let page := session.pool.copy copy
    let copies := match name with
      | some name => session.copies.insert name copy
      | none => session.copies
    (.ok (.fetched page.id page.bytes.length page.dirtiedBy), { session with copies })

/-- A round of taking up waiting calls: the calls that ended with what became of their steps,
the calls that wait still, and whether any call got further. -/
structure Round where
  session : Session
  ended : List (Nat × Response)
  waiting : List PendingCall
  advanced : Bool

namespace Round

/-- Takes up one waiting call. -/
def takeUp (round : Round) (pending : PendingCall) : Round :=
  let (progress, pool) := pending.call.run pending.txn round.session.pool
  let session := { round.session with pool }
  match progress with
  | .done outcome =>
    let (response, session) := session.finishCall pending.name outcome
    { session, ended := round.ended ++ [(pending.step, response)], waiting := round.waiting
      advanced := true }
  | .waiting call =>
    { session, ended := round.ended, waiting := round.waiting ++ [{ pending with call }]
      advanced := round.advanced || call.requests < pending.call.requests }

end Round

/-- Takes up every waiting call once, in the order of their steps. -/
def round (session : Session) : Round :=
  session.pending.foldl Round.takeUp ⟨session, [], [], false⟩

/-- Takes up waiting calls for a number of rounds, or until none gets any further. -/
def settleWithin : Nat → Session → List (Nat × Response) × Session
  | 0, session => ([], session)
  | rounds + 1, session =>
    let round := session.round
    let session := { round.session with pending := round.waiting }
    if round.advanced then
      let (ended, session) := settleWithin rounds session
      (round.ended ++ ended, session)
    else (round.ended, session)

/-- Takes up waiting calls until none gets any further.  A call gets further only by a request
less that it has to make. -/
def settle (session : Session) : List (Nat × Response) × Session :=
  let requests := session.pending.foldl (fun sum pending => sum + pending.call.requests) 0
  let (ended, session) := settleWithin (requests + 1) session
  (ended.mergeSort fun a b => a.1 ≤ b.1, session)

end StorageEngine.Session
