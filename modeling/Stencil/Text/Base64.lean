import Stencil.Text.Basic

/-!
# Bytes in base 64

Four signs of six bits each write three bytes. Reading passes over characters that are no signs, and ends
at the pad signs that fill up a group of four; a text that ends inside a group is refused.
-/

namespace Stencil.Text

/-- The signs, in the order of their values. -/
def base64Signs : Text :=
  "ABCDEFGHIJKLMNOPQRSTUVWXYZabcdefghijklmnopqrstuvwxyz0123456789+/".toList

/-- The bytes of a text from a place in a group on, where `left` has the bits that are not in a byte yet,
and `pads` pad signs come before. -/
def decodeBase64From (place left pads : Nat) : Text → Option (List Nat)
  | [] => if place = 0 then some [] else none
  | c :: rest =>
    if c = '=' then
      if place < 2 then decodeBase64From place left pads rest
      else if 4 ≤ place + pads + 1 then some []
      else decodeBase64From place left (pads + 1) rest
    else
      match base64Signs.idxOf? c with
      | none => decodeBase64From place left pads rest
      | some v =>
        match place with
        | 0 => decodeBase64From 1 v 0 rest
        | 1 => (decodeBase64From 2 (v % 16) 0 rest).map ((left * 4 + v / 16) :: ·)
        | 2 => (decodeBase64From 3 (v % 4) 0 rest).map ((left * 16 + v / 4) :: ·)
        | _ => (decodeBase64From 0 0 0 rest).map ((left * 64 + v) :: ·)

/-- The bytes that a text writes in base 64. -/
def decodeBase64? (t : Text) : Option (List Nat) := decodeBase64From 0 0 0 t

end Stencil.Text
