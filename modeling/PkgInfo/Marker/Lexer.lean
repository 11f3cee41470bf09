import PkgInfo.Marker.Fault

/-! Reading the tokens of a marker one after the other. A lexer is its source and the text left to
read, so its place is always between two characters; it may be asked for more after a fault and
after the end. -/
namespace PkgInfo.Marker

structure Lexer where
  source : Text
  rest : Text
  finished : Bool
  deriving DecidableEq, Repr

namespace Lexer

def start (source : Text) : Lexer := ⟨source, source, false⟩

def offset (l : Lexer) : Nat := Text.byteSize l.source - Text.byteSize l.rest

def onto (l : Lexer) (rest : Text) : Lexer := {l with rest}

def fault (l : Lexer) (f : LexFault) : SyntaxFault := .lexical f l.offset l.source

def next (l : Lexer) : Except SyntaxFault Token :=
  match (cut l.rest).outcome with
  | .ok t => .ok t
  | .error f => .error ((l.onto (cut l.rest).rest).fault f)

def advance (l : Lexer) : Lexer :=
  let c := cut l.rest
  {l with rest := c.rest, finished := l.finished || c.outcome = .ok .stop}

def items (l : Lexer) : List (Except SyntaxFault Token) :=
  if l.finished then []
  else
    let (all, stuck) := tokens l.rest
    all.map .ok ++ (stuck.toList.map fun s => .error ((l.onto s.rest).fault s.fault))

end Lexer

def Stuck.inSource (source : Text) (s : Stuck) : SyntaxFault :=
  ((Lexer.start source).onto s.rest).fault s.fault

def tokenize (source : Text) : Except SyntaxFault (List Token) :=
  match tokens source with
  | (all, none) => .ok all
  | (_, some stuck) => .error (stuck.inSource source)

end PkgInfo.Marker
