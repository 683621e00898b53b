import Bdb.Base.Sha256
import Mathlib.Data.List.Flatten

/-! # Texts as bytes

The UTF-8 bytes of a text determine it, and no text without the null character has a null
byte. So a text that is closed by a null byte can be read off the front of any sequence.
-/
namespace Bdb

abbrev Bytes := List UInt8

namespace Sha256

def digest (bytes : List ℕ) : List ℕ :=
  let message := pad bytes
  let s := absorb (message.length / 64) (words message) initial
  [s.a,s.b,s.c,s.d,s.e,s.f,s.g,s.h].flatMap fun n => [24,16,8,0].map fun k => (n >>> k) % 256

def hexDigest (bytes : List ℕ) : String :=
  let message := pad bytes
  let s := absorb (message.length / 64) (words message) initial
  String.ofList ([s.a,s.b,s.c,s.d,s.e,s.f,s.g,s.h].flatMap hexDigits)

end Sha256

open Sha256 (utf8)

def Bytes.nats (b : Bytes) : List ℕ := b.map UInt8.toNat

def textBytes (s : String) : List ℕ := s.toList.flatMap utf8

variable {c d : Char} {x y : List ℕ} {s t : String}

theorem toNat_inj (h : c.toNat = d.toNat) : c = d := by
  have hval : c.val = d.val := UInt32.toNat_inj.mp h
  exact Char.ext hval

theorem utf8_cases (c : Char) :
    (∃ a, utf8 c = [a] ∧ a < 128 ∧ c.toNat = a) ∨
    (∃ a b, utf8 c = [192 + a,128 + b] ∧ a < 32 ∧ c.toNat = a * 64 + b) ∨
    (∃ a b d, utf8 c = [224 + a,128 + b,128 + d] ∧ a < 16 ∧ c.toNat = (a * 64 + b) * 64 + d) ∨
    ∃ a b d e, utf8 c = [240 + a,128 + b,128 + d,128 + e] ∧ c.toNat = ((a * 64 + b) * 64 + d) * 64 + e := by
  unfold utf8
  dsimp only
  split
  · rename_i h
    exact .inl ⟨_,rfl,h,rfl⟩
  · split
    · exact .inr (.inl ⟨_,_,rfl,by omega,by omega⟩)
    · split
      · exact .inr (.inr (.inl ⟨_,_,_,rfl,by omega,by omega⟩))
      · exact .inr (.inr (.inr ⟨_,_,_,_,rfl,by omega⟩))

theorem utf8_append_inj (h : utf8 c ++ x = utf8 d ++ y) : c = d ∧ x = y := by
  rcases utf8_cases c with ⟨a,hc,ha,hcn⟩ | ⟨a,b,hc,ha,hcn⟩ | ⟨a,b,e,hc,ha,hcn⟩ | ⟨a,b,e,f,hc,hcn⟩ <;>
  rcases utf8_cases d with ⟨a',hd,ha',hdn⟩ | ⟨a',b',hd,ha',hdn⟩ | ⟨a',b',e',hd,ha',hdn⟩ | ⟨a',b',e',f',hd,hdn⟩ <;>
  rw [hc,hd] at h <;> simp only [List.cons_append,List.nil_append,List.cons.injEq] at h
  case inl.inl => exact ⟨toNat_inj (by omega),h.2⟩
  case inr.inl.inr.inl => exact ⟨toNat_inj (by omega),h.2.2⟩
  case inr.inr.inl.inr.inr.inl => exact ⟨toNat_inj (by omega),h.2.2.2⟩
  case inr.inr.inr.inr.inr.inr => exact ⟨toNat_inj (by omega),h.2.2.2.2⟩
  all_goals omega

theorem flatMap_utf8_inj {cs ds : List Char} (h : cs.flatMap utf8 = ds.flatMap utf8) : cs = ds := by
  induction cs generalizing ds with
  | nil =>
    cases ds with
    | nil => rfl
    | cons d ds =>
      rcases utf8_cases d with ⟨_,hd,-⟩ | ⟨_,_,hd,-⟩ | ⟨_,_,_,hd,-⟩ | ⟨_,_,_,_,hd,-⟩ <;> simp [hd] at h
  | cons c cs ih =>
    cases ds with
    | nil =>
      rcases utf8_cases c with ⟨_,hc,-⟩ | ⟨_,_,hc,-⟩ | ⟨_,_,_,hc,-⟩ | ⟨_,_,_,_,hc,-⟩ <;> simp [hc] at h
    | cons d ds =>
      obtain ⟨rfl,hrest⟩ := utf8_append_inj h
      rw [ih hrest]

theorem textBytes_inj (h : textBytes s = textBytes t) : s = t :=
  String.toList_inj.mp (flatMap_utf8_inj h)

theorem null_of_mem_utf8 (h : 0 ∈ utf8 c) : c.toNat = 0 := by
  rcases utf8_cases c with ⟨a,hc,ha,hcn⟩ | ⟨a,b,hc,ha,hcn⟩ | ⟨a,b,e,hc,ha,hcn⟩ | ⟨a,b,e,f,hc,hcn⟩ <;>
    simp [hc] at h <;> omega

theorem textBytes_closed_inj (hs : ∀ c ∈ s.toList, c.toNat ≠ 0)
    (ht : ∀ c ∈ t.toList, c.toNat ≠ 0) (h : textBytes s ++ 0 :: x = textBytes t ++ 0 :: y) : s = t ∧ x = y := by
  have hfree : ∀ u : String, (∀ c ∈ u.toList, c.toNat ≠ 0) → 0 ∉ textBytes u := by
    intro u hu hmem
    obtain ⟨c,hc,hnull⟩ := List.mem_flatMap.mp hmem
    exact hu c hc (null_of_mem_utf8 hnull)
  have htake : ∀ (xs ys : List ℕ), 0 ∉ xs → (xs ++ 0 :: ys).takeWhile (· ≠ 0) = xs := by
    intro xs ys hxs
    rw [List.takeWhile_append_of_pos]
    · simp
    · intro a ha
      exact decide_eq_true (fun hzero => hxs (hzero ▸ ha))
  have hbytes : textBytes s = textBytes t := by
    rw [← htake (textBytes s) x (hfree s hs),h,htake (textBytes t) y (hfree t ht)]
  rw [hbytes] at h
  exact ⟨textBytes_inj hbytes,(List.cons.inj (List.append_cancel_left h)).2⟩

end Bdb
