import Bundler.Script.Print.Statement

/-! Writing a whole script. -/

namespace Bundler.Script

namespace Draw

def node (n : Node) (parts : List Piece) (mode : Mode) : Draw :=
  match n.form with
  | .program hashbang closing => program hashbang closing parts
  | _ =>
    match mode with
    | .statement => statement n parts
    | .inline forbidIn => inline n parts forbidIn
    | .expression level forbidIn forbidCall isHeld =>
      expression n parts ⟨level, forbidIn, forbidCall, isHeld⟩

end Draw

def Node.draw : Node → Mode → Draw :=
  Node.fold fun n below => Draw.node n (List.zipWith Piece.mk n.parts below)

def Node.print (n : Node) : String :=
  ((n.draw .statement).run Pen.fresh).2.text

end Bundler.Script
