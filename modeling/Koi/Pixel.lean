import Koi.Color

/-!
# Pixels

A pixel has three color components and an alpha, all of 8 bits. It is kept in one word, which makes
an image small.

* `Pixel.rgba`: the pixel with given channels.
* `Pixel.red`, `Pixel.green`, `Pixel.blue`, `Pixel.alpha`, `Pixel.get`: the channels of a pixel;
  `rgba_channels` and `ext_channels` say that a pixel is nothing but its channels.
* `Pixel.tint`: a pixel of a mask painted in one color.
-/

namespace Koi

/-- A pixel: red in the lowest byte of the word, then green, blue and alpha. -/
structure Pixel where
  word : UInt32
  deriving DecidableEq, Repr, Inhabited

/-- The channels of an image. -/
inductive Channel where
  | red
  | green
  | blue
  | alpha
  deriving DecidableEq, Repr

namespace Pixel

/-- The pixel with the given channels. -/
@[inline] def rgba (red green blue alpha : UInt8) : Pixel :=
  ⟨red.toUInt32 + 256 * green.toUInt32 + 65536 * blue.toUInt32 + 16777216 * alpha.toUInt32⟩

@[inline] def red (p : Pixel) : UInt8 := p.word.toUInt8

@[inline] def green (p : Pixel) : UInt8 := (p.word >>> 8).toUInt8

@[inline] def blue (p : Pixel) : UInt8 := (p.word >>> 16).toUInt8

@[inline] def alpha (p : Pixel) : UInt8 := (p.word >>> 24).toUInt8

/-- The value of one channel of a pixel. -/
@[inline] def get (p : Pixel) : Channel → UInt8
  | .red => p.red
  | .green => p.green
  | .blue => p.blue
  | .alpha => p.alpha

/-- The pixel that shows nothing. -/
def clear : Pixel := rgba 0 0 0 0

/-- A pixel of a mask painted in a color (`colorize`): where the mask shows anything, its alpha
    remains and the color takes the place of its own. -/
@[inline] def tint (color : Color) (p : Pixel) : Pixel :=
  if p.alpha = 0 then clear else rgba color.red color.green color.blue p.alpha

/-! ## The channels of a pixel -/

theorem toNat_word_rgba (r g b a : UInt8) : (rgba r g b a).word.toNat =
    r.toNat + 256 * g.toNat + 65536 * b.toNat + 16777216 * a.toNat := by
  have hr := r.toNat_lt
  have hg := g.toNat_lt
  have hb := b.toNat_lt
  have ha := a.toNat_lt
  simp only [rgba, UInt32.toNat_add, UInt32.toNat_mul, UInt8.toNat_toUInt32, UInt32.toNat_ofNat]
  omega

theorem toNat_red (p : Pixel) : p.red.toNat = p.word.toNat % 256 := by
  simp [red]

theorem toNat_green (p : Pixel) : p.green.toNat = p.word.toNat / 256 % 256 := by
  simp [green, Nat.shiftRight_eq_div_pow]

theorem toNat_blue (p : Pixel) : p.blue.toNat = p.word.toNat / 65536 % 256 := by
  simp [blue, Nat.shiftRight_eq_div_pow]

theorem toNat_alpha (p : Pixel) : p.alpha.toNat = p.word.toNat / 16777216 := by
  have h := p.word.toNat_lt
  simp only [alpha, UInt32.toNat_toUInt8, UInt32.toNat_shiftRight, UInt32.toNat_ofNat,
    Nat.shiftRight_eq_div_pow, Nat.reduceMod, Nat.reducePow]
  omega

@[simp] theorem red_rgba (r g b a : UInt8) : (rgba r g b a).red = r := by
  have hr := r.toNat_lt
  apply UInt8.toNat_inj.1
  rw [toNat_red, toNat_word_rgba]
  omega

@[simp] theorem green_rgba (r g b a : UInt8) : (rgba r g b a).green = g := by
  have hr := r.toNat_lt
  have hg := g.toNat_lt
  apply UInt8.toNat_inj.1
  rw [toNat_green, toNat_word_rgba]
  omega

@[simp] theorem blue_rgba (r g b a : UInt8) : (rgba r g b a).blue = b := by
  have hr := r.toNat_lt
  have hg := g.toNat_lt
  have hb := b.toNat_lt
  apply UInt8.toNat_inj.1
  rw [toNat_blue, toNat_word_rgba]
  omega

@[simp] theorem alpha_rgba (r g b a : UInt8) : (rgba r g b a).alpha = a := by
  have hr := r.toNat_lt
  have hg := g.toNat_lt
  have hb := b.toNat_lt
  apply UInt8.toNat_inj.1
  rw [toNat_alpha, toNat_word_rgba]
  omega

/-- A pixel is determined by its channels. -/
theorem ext_channels {p q : Pixel} (h : ∀ c, p.get c = q.get c) : p = q := by
  have hr := congrArg UInt8.toNat (h .red)
  have hg := congrArg UInt8.toNat (h .green)
  have hb := congrArg UInt8.toNat (h .blue)
  have ha := congrArg UInt8.toNat (h .alpha)
  simp only [get, toNat_red, toNat_green, toNat_blue, toNat_alpha] at hr hg hb ha
  obtain ⟨v⟩ := p
  obtain ⟨w⟩ := q
  simp only [mk.injEq]
  apply UInt32.toNat_inj.1
  simp only at hr hg hb ha
  omega

@[simp] theorem rgba_channels (p : Pixel) : rgba p.red p.green p.blue p.alpha = p := by
  apply ext_channels
  intro c
  cases c <;> simp [get]

end Pixel

/-- A color without transparency (`to_rgba`). -/
def Color.opaquePixel (c : Color) : Pixel := .rgba c.red c.green c.blue 255

end Koi
