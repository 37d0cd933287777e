import BackupAdmin.Text.Digits

/-! Characters that an address cannot hold, written as `%` and the digits of their UTF-8 bytes. -/
namespace BackupAdmin.Web
open Text

def encodeByte (b : UInt8) : List Char := '%' :: paddedHex 2 b.toNat

/-- A text with all but the kept characters encoded. -/
def encodeBut (keeps : Char → Bool) (cs : List Char) : List Char :=
  cs.flatMap fun c => if keeps c then [c] else (String.utf8EncodeChar c).flatMap encodeByte

/-- The bytes of a text with what is encoded in it decoded; a lone `%` stands for itself. -/
def decodedBytes : List Char → List UInt8
  | '%' :: a :: b :: rest => match hexValue? a, hexValue? b with
    | some h, some l => UInt8.ofNat (16 * h + l) :: decodedBytes rest
    | _, _ => UInt8.ofNat 37 :: decodedBytes (a :: b :: rest)
  | c :: rest => String.utf8EncodeChar c ++ decodedBytes rest
  | [] => []

def decode? (cs : List Char) : Option (List Char) :=
  (String.fromUTF8? (ByteArray.mk (decodedBytes cs).toArray)).map String.toList

/-- Characters that a form's values keep. -/
def isFormChar (c : Char) : Bool :=
  c.isAlphanum || c = '*' || c = '-' || c = '.' || c = '_'

/-- A value of a form: blanks are written as `+`, all but a few characters encoded. -/
def formText (s : String) : List Char :=
  s.toList.flatMap fun c => if c = ' ' then ['+'] else encodeBut isFormChar [c]

/-- A pair of a form. -/
def formPair (p : String × String) : List Char := formText p.1 ++ '=' :: formText p.2

theorem encodeBut_eq_self {keeps : Char → Bool} {cs : List Char} (h : ∀ c ∈ cs, keeps c = true) :
    encodeBut keeps cs = cs := by
  induction cs with
  | nil => rfl
  | cons c rest ih =>
    simp_all [encodeBut]

example : formText "a b/é" = "a+b%2F%C3%A9".toList := by decide +kernel

end BackupAdmin.Web
