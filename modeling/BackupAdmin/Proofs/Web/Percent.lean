import BackupAdmin.Web.Percent

/-! What is encoded in an address and decoded again. Main statement: where the percent sign and the
hexadecimal digits are kept, a text is decoded to the same bytes after it was encoded. -/
namespace BackupAdmin.Web
open Text

/-- A percent sign with these characters behind it stands for itself. -/
def Lone (cs : List Char) : Prop :=
  ∀ a b rest, cs = a :: b :: rest → hexValue? a = none ∨ hexValue? b = none

section
variable {a b c : Char} {cs rest : List Char}

@[simp] theorem decodedBytes_nil : decodedBytes [] = [] := by rw [decodedBytes]

theorem decodedBytes_eq_nil (h : decodedBytes cs = []) : cs = [] := by
  unfold decodedBytes at h
  split at h
  · split at h <;> contradiction
  · exact absurd (List.append_eq_nil_iff.1 h).1 String.utf8EncodeChar_ne_nil
  · rfl

theorem decodedBytes_hex {h l : Nat} (high : hexValue? a = some h) (low : hexValue? b = some l) :
    decodedBytes ('%' :: a :: b :: rest) = UInt8.ofNat (16 * h + l) :: decodedBytes rest := by
  rw [decodedBytes, high, low]

theorem decodedBytes_cons (ne : c ≠ '%') :
    decodedBytes (c :: cs) = String.utf8EncodeChar c ++ decodedBytes cs := by
  rw [decodedBytes]
  rintro _ _ _ rfl _
  contradiction

theorem decodedBytes_lone (lone : Lone cs) :
    decodedBytes ('%' :: cs) = UInt8.ofNat 37 :: decodedBytes cs := by
  match cs, lone with
  | [], _ => rfl
  | [a], _ => rfl
  | a :: b :: rest, lone =>
    rw [decodedBytes]
    rcases lone a b rest rfl with none | none
    · rw [none]
    · rw [none]
      cases hexValue? a <;> rfl

/-- The digits of one byte are decoded to it. -/
theorem decodedBytes_encodeByte (x : UInt8) (cs : List Char) :
    decodedBytes (encodeByte x ++ cs) = x :: decodedBytes cs := by
  have all : ∀ n < 256, (paddedHex 2 n).map hexValue? = [some (n / 16), some (n % 16)] := by
    decide +kernel
  have digits := all x.toNat x.toNat_lt
  obtain ⟨a, as, same, high, digits⟩ := List.map_eq_cons_iff.1 digits
  obtain ⟨b, bs, rfl, low, digits⟩ := List.map_eq_cons_iff.1 digits
  obtain rfl := List.map_eq_nil_iff.1 digits
  rw [encodeByte, same]
  refine (decodedBytes_hex high low).trans ?_
  rw [Nat.div_add_mod, UInt8.ofNat_toNat]
  rfl

theorem decodedBytes_flatMap (xs : List UInt8) (cs : List Char) :
    decodedBytes (xs.flatMap encodeByte ++ cs) = xs ++ decodedBytes cs := by
  induction xs with
  | nil => rfl
  | cons x xs ih =>
    rw [List.flatMap_cons, List.append_assoc, decodedBytes_encodeByte, ih, List.cons_append]

end

section
variable {keeps : Char → Bool} {c : Char} {cs : List Char}

theorem encodeBut_cons_of_kept (kept : keeps c = true) (cs : List Char) :
    encodeBut keeps (c :: cs) = c :: encodeBut keeps cs := by
  rw [encodeBut, List.flatMap_cons, if_pos kept]
  rfl

theorem encodeBut_cons_of_not_kept (other : keeps c = false) (cs : List Char) :
    encodeBut keeps (c :: cs) =
      (String.utf8EncodeChar c).flatMap encodeByte ++ encodeBut keeps cs := by
  rw [encodeBut, List.flatMap_cons, if_neg (by simp [other])]
  rfl

/-- What is encoded begins with a percent sign. -/
theorem head?_encodeBut (keeps : Char → Bool) (c : Char) (cs : List Char) :
    (encodeBut keeps (c :: cs)).head? = some (if keeps c then c else '%') := by
  cases kept : keeps c with
  | true => rw [encodeBut_cons_of_kept kept, if_pos rfl, List.head?_cons]
  | false =>
    obtain ⟨x, xs, bytes⟩ := List.exists_cons_of_ne_nil (String.utf8EncodeChar_ne_nil (c := c))
    rw [encodeBut_cons_of_not_kept kept, bytes, List.flatMap_cons, encodeByte]
    rfl

/-- A percent sign that stands for itself does so in front of what is encoded. -/
theorem lone_encodeBut (lone : Lone cs) : Lone (encodeBut keeps cs) := by
  intro a b rest same
  have no_value : hexValue? '%' = none := by decide
  have value_head (c : Char) : hexValue? (if keeps c then c else '%') = none ∨ keeps c = true := by
    cases keeps c with
    | true => exact .inr rfl
    | false => exact .inl no_value
  cases cs with
  | nil => contradiction
  | cons c cs =>
    have first := head?_encodeBut keeps c cs
    rw [same, List.head?_cons, Option.some.injEq] at first
    rcases value_head c with none | kept
    · exact .inl (first ▸ none)
    rw [if_pos kept] at first
    subst first
    rw [encodeBut_cons_of_kept kept] at same
    obtain ⟨-, same⟩ := List.cons.inj same
    cases cs with
    | nil => contradiction
    | cons d cs =>
      have second := head?_encodeBut keeps d cs
      rw [same, List.head?_cons, Option.some.injEq] at second
      rcases lone a d cs rfl with none | none
      · exact .inl none
      · refine .inr (second ▸ ?_)
        split
        · exact none
        · exact no_value

/-- A text is decoded to the same bytes after it was encoded. -/
theorem decodedBytes_encodeBut (percent : keeps '%' = true)
    (digits : ∀ c, hexValue? c ≠ none → keeps c = true) (cs : List Char) :
    decodedBytes (encodeBut keeps cs) = decodedBytes cs := by
  have of_lone {cs : List Char} (lone : Lone cs)
      (ih : decodedBytes (encodeBut keeps cs) = decodedBytes cs) :
      decodedBytes (encodeBut keeps ('%' :: cs)) = UInt8.ofNat 37 :: decodedBytes cs := by
    rw [encodeBut_cons_of_kept percent, decodedBytes_lone (lone_encodeBut lone), ih]
  fun_induction decodedBytes cs with
  | case1 a b rest h l low high ih =>
    have kept_a : keeps a = true := digits a (by simp [high])
    have kept_b : keeps b = true := digits b (by simp [low])
    rw [encodeBut_cons_of_kept percent, encodeBut_cons_of_kept kept_a,
      encodeBut_cons_of_kept kept_b, decodedBytes_hex high low, ih]
  | case2 a b rest other ih =>
    refine of_lone ?_ ih
    rintro _ _ _ ⟨⟩
    cases high : hexValue? a with
    | none => exact .inl rfl
    | some h => exact .inr (Option.eq_none_iff_forall_ne_some.2 fun l low => other h l high low)
  | case3 c rest short ih =>
    by_cases sign : c = '%'
    · subst sign
      exact of_lone (fun a b rest' same => (short a b rest' rfl same).elim) ih
    · cases kept : keeps c with
      | true => rw [encodeBut_cons_of_kept kept, decodedBytes_cons sign, ih]
      | false => rw [encodeBut_cons_of_not_kept kept, decodedBytes_flatMap, ih]
  | case4 => rfl

end

/-- A byte below 128 comes from its own character only. -/
theorem utf8EncodeChar_append_eq_cons {c : Char} {x : UInt8} {xs ys : List UInt8}
    (small : x.toNat < 128) (h : String.utf8EncodeChar c ++ ys = x :: xs) :
    c.toNat = x.toNat ∧ ys = xs := by
  -- the first of several bytes is not that small
  have large {n : Nat} {zs : List UInt8} (first : UInt8.ofNat n :: zs = x :: xs) (least : 128 ≤ n)
      (most : n < 256) : False := by
    obtain ⟨rfl, -⟩ := List.cons.inj first
    rw [UInt8.toNat_ofNat'] at small
    omega
  unfold String.utf8EncodeChar at h
  dsimp only at h
  split at h
  · obtain ⟨rfl, same⟩ := List.cons.inj h
    have back : (UInt8.ofNat c.val.toNat).toNat = c.val.toNat := by
      rw [UInt8.toNat_ofNat']
      omega
    exact ⟨back.symm, same⟩
  split at h
  · exact (large h (by omega) (by omega)).elim
  split at h
  · exact (large h (by omega) (by omega)).elim
  · exact (large h (by omega) (by omega)).elim

end BackupAdmin.Web
