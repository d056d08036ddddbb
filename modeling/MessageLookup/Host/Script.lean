/-! Where a host takes its replies from. A playlist serves its replies in order and repeats the last
one for ever; what is left of it is its position. A script has a playlist for each of some codes and
a common one for all others. -/

namespace MessageLookup

/-- Replies to serve in order, at least one. -/
structure Playlist (ρ : Type) where
  current : ρ
  later : List ρ := []
deriving DecidableEq, Repr

def Playlist.advance {ρ : Type} (p : Playlist ρ) : Playlist ρ :=
  match p.later with
  | [] => p
  | r :: rs => ⟨r, rs⟩

structure Script (ρ : Type) where
  own : Int32 → Option (Playlist ρ) := fun _ => none
  common : Playlist ρ

namespace Script

variable {ρ : Type}

def reply (s : Script ρ) (code : Int32) : ρ :=
  ((s.own code).getD s.common).current

def advance (s : Script ρ) (code : Int32) : Script ρ :=
  match s.own code with
  | some p => { s with own := fun c => if c = code then some p.advance else s.own c }
  | none => { s with common := s.common.advance }

end Script

/-- A steady host has one reply for a code, always the same. -/
inductive Answers (ρ : Type) where
  | steady (reply : Int32 → ρ)
  | scripted (script : Script ρ)

namespace Answers

variable {ρ : Type}

def reply (code : Int32) : Answers ρ → ρ
  | steady f => f code
  | scripted s => s.reply code

def advance (code : Int32) : Answers ρ → Answers ρ
  | steady f => steady f
  | scripted s => scripted (s.advance code)

end Answers

end MessageLookup
