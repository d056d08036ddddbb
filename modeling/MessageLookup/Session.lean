import MessageLookup.Report

/-! Steps on one resolver, one host and one pair of streams. -/

namespace MessageLookup

structure Session (b : Backend) where
  resolver : Resolver := .default
  host : Host b
  streams : Streams := {}

inductive Step (b : Backend) where
  /-- Takes the resolver that options finish to. -/
  | configure (options : Options)
  | install (answers : Answers b.Reply)
  | resolve (code : Int32)
  | describe (code : Int32)
  | shared
  | report (code : Int32)
  | reportShared (code : Int32)

inductive StepResult where
  | configured (resolver : Resolver)
  | installed
  | resolved (resolution : Resolution)
  | shared (resolver : Resolver)
  | reported (report : Report)

namespace Session

variable {b : Backend}

def lookedUp (s : Session b) (found : Resolution × Host b) : StepResult × Session b :=
  (.resolved found.1, { s with host := found.2 })

def reported (s : Session b) (r : Resolver) (code : Int32) : StepResult × Session b :=
  let done := MessageLookup.report (r.lookup b) code s.streams s.host
  (.reported done.1, { s with host := done.2, streams := done.1.streams })

def step (s : Session b) : Step b → StepResult × Session b
  | .configure options => (.configured options.finish, { s with resolver := options.finish })
  | .install answers => (.installed, { s with host := s.host.install answers })
  | .resolve code => s.lookedUp (s.resolver.resolve code s.host)
  | .describe code => s.lookedUp (MessageLookup.describe code s.host)
  | .shared => (.shared Resolver.shared, s)
  | .report code => s.reported s.resolver code
  | .reportShared code => s.reported Resolver.shared code

/-- What the steps answer in turn, and the session after them. -/
def run (s : Session b) : List (Step b) → List StepResult × Session b
  | [] => ([], s)
  | step :: steps =>
    let first := s.step step
    let rest := first.2.run steps
    (first.1 :: rest.1, rest.2)

end Session

end MessageLookup
