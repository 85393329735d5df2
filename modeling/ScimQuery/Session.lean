import ScimQuery.Listing

/-! # Sessions

A session is a sequence of steps on one store, each with an answer.  A step that is refused leaves
the store as it was. -/

namespace ScimQuery

/-- A step of a session. -/
inductive Step where
  | add (scope : Scope) (resource : Object)
  | find (scope : Scope) (predicate : List (String × Json))
  | list (scope : Scope) (request : SearchRequest)
  | get (scope : Scope) (id : String) (projection : Projection)

/-- The answer to a step, with receipts `ρ` for what is added. -/
inductive Answer (ρ : Type) where
  | added (result : Except AddFault ρ)
  | found (result : Except FindFault (List Object))
  | page (result : Except Listing.Fault Page)
  | resource (result : Except Listing.Fault (Option Object))

namespace Session

/-- The answer to a step, and the store after it. -/
def step {σ : Type} [Store σ] (s : σ) : Step → Answer (Store.Receipt σ) × σ
  | .add scope r =>
    match Store.add s scope r with
    | .ok (receipt, s') => (.added (.ok receipt), s')
    | .error fault => (.added (.error fault), s)
  | .find scope predicate => (.found (Store.find s scope predicate), s)
  | .list scope request => (.page (Listing.list s scope request), s)
  | .get scope id projection => (.resource (Listing.get s scope id projection), s)

/-- The answers to the steps of a session. -/
def run {σ : Type} [Store σ] (s : σ) : List Step → List (Answer (Store.Receipt σ))
  | [] => []
  | step :: rest => (Session.step s step).1 :: run (Session.step s step).2 rest

end Session
end ScimQuery
