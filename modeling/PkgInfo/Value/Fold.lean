import PkgInfo.Text.Basic

/-! Folding: each line of a text but the first gets an indentation and a bar in front, so that a
header can hold it. Unfolding takes them off again where they are. -/
namespace PkgInfo.Value

def bar : Text := "       |".toList

def fold (text : Text) : Text := Text.joined ('\n' :: bar) (Text.pieces '\n' text)

def withoutBar (line : Text) : Text := (Text.stripLead? bar line).getD line

def unfold (text : Text) : Text :=
  match Text.pieces '\n' text with
  | [] => []
  | first :: others => Text.joined ['\n'] (first :: others.map withoutBar)

end PkgInfo.Value
