/-!
Ciphers with feedback over an arbitrary alphabet.

Every letter is mixed with the key letter of its position and with a feedback
letter. The writer feeds back the letter it has just written, the reader the
letter it has just read, so both feed back the same letters.
-/
namespace Feedback

universe u v
variable {α : Type u} {κ : Type v} {mix unmix : κ → α → α → α} {key : Nat → κ}

/-- Write a text from a position on, with the feedback letter `c`. -/
def encipher (mix : κ → α → α → α) (key : Nat → κ) : Nat → α → List α → List α
  | _, _, [] => []
  | pos, c, x :: xs =>
      let y := mix (key pos) c x
      y :: encipher mix key (pos + 1) y xs

def decipher (unmix : κ → α → α → α) (key : Nat → κ) : Nat → α → List α → List α
  | _, _, [] => []
  | pos, c, y :: ys => unmix (key pos) c y :: decipher unmix key (pos + 1) y ys

@[simp] theorem length_encipher (pos : Nat) (c : α) (xs : List α) :
    (encipher mix key pos c xs).length = xs.length := by
  induction xs generalizing pos c with
  | nil => rfl
  | cons x xs ih =>
      rw [encipher, List.length_cons, ih, List.length_cons]

theorem decipher_encipher (inverse : ∀ k c x, unmix k c (mix k c x) = x) (pos : Nat) (c : α)
    (xs : List α) :
    decipher unmix key pos c (encipher mix key pos c xs) = xs := by
  induction xs generalizing pos c with
  | nil => rfl
  | cons x xs ih =>
      rw [encipher, decipher, inverse, ih]

end Feedback
