import AccessGate.Key.Kind
import AccessGate.Text.Encoding
import AccessGate.Value.Lookup

/-!
# Public keys in one line

A public key may be written in one line: the word for its type, and behind blanks the key itself.

* `AccessGate.KeyLine.leadingWord?` – the **word in front** of such a line;
* `AccessGate.KeyLine.unknownType?` – that word, if it is **no type of key**;
* `AccessGate.KeyLine.isPublic` – does a key **start like** such a line?
* `AccessGate.KeyLine.isReadFor` – is a key **read as such a line** by an algorithm of a family?
-/

namespace AccessGate.KeyLine

/-! ### Types -/

/-- The types of public keys in one line. -/
def types : List String := ["ssh-ed25519", "ssh-rsa", "ssh-dss", "ecdsa-sha2-nistp256",
  "ecdsa-sha2-nistp384", "ecdsa-sha2-nistp521"]

/-- The end of the type of a key that somebody vouches for. -/
def vouched : List UInt8 := Text.utf8 "-cert-v01@openssh.com"

/-- Is a word the type of a key? -/
def isType (word : List UInt8) : Bool :=
  types.any fun type => Text.utf8 type == word || Text.utf8 type ++ vouched == word

/-! ### Lines -/

/-- Is a byte a blank, or the end of a line? -/
def isGap (b : UInt8) : Bool := b == 32 || (decide (9 ≤ b) && decide (b ≤ 13))

/-- The first word of a line that goes on with another one after blanks. -/
def leadingWord? (bs : List UInt8) : Option (List UInt8) :=
  let word := bs.takeWhile fun b => !isGap b
  let gap := (bs.drop word.length).takeWhile fun b => b == 32 || b == 9
  match bs.drop (word.length + gap.length) with
  | b :: _ => if word.isEmpty || gap.isEmpty || isGap b then none else some word
  | [] => none

/-- The first word of such a line, if it is no type of key. -/
def unknownType? (bs : List UInt8) : Option (List UInt8) :=
  (leadingWord? bs).filter fun word => !isType word

/-- Does a key start with the type of a public key? -/
def isPublic (bs : List UInt8) : Bool :=
  types.any (fun type => (Text.utf8 type).isPrefixOf bs) ||
    (leadingWord? bs).any vouched.isSuffixOf

/-! ### Readers -/

/-- Is there a marker of a key of an edwards curve anywhere? -/
def isMarked (bs : List UInt8) : Bool :=
  ["-----BEGIN PUBLIC", "-----BEGIN PRIVATE"].any fun marker => Value.occurs (Text.utf8 marker) bs

/-- Is a key read as one in a line by an algorithm of a family? -/
def isReadFor (family : KeyFamily) (bs : List UInt8) : Bool :=
  match family with
  | .rsa => (Text.utf8 "ssh-rsa").isPrefixOf bs
  | .curve => (Text.utf8 "ecdsa-sha2-").isPrefixOf bs
  | .edwards =>
      (Text.ofUtf8? bs).isSome && !isMarked bs && (Text.utf8 "ssh-").isPrefixOf bs

end AccessGate.KeyLine
