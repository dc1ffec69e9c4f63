import StatefulPages.Storage.LittleEndian
import StatefulPages.Text.Utf8

/-!
# Binary formats

A `Format` writes values as bytes and reads them back from the front of what follows them. Every
format carries the proof that it reads what it wrote, and larger formats are put together from
smaller ones.
-/

namespace StatefulPages

/-- A way to write values as bytes that can be read back. -/
structure Format (α : Type) where
  write : α → List UInt8
  /-- Reads a value, and gives the bytes behind it. -/
  read : List UInt8 → Option (α × List UInt8)
  read_write : ∀ x rest, read (write x ++ rest) = some (x, rest)

namespace Format

variable {α β : Type}

/-- A byte. -/
def byte : Format UInt8 where
  write b := [b]
  read
    | b :: rest => some (b, rest)
    | [] => none
  read_write _ _ := rfl

/-- A value, written as another one that stands for it. -/
def via (f : Format β) (toOther : α → β) (ofOther : β → Option α)
    (h : ∀ x, ofOther (toOther x) = some x) : Format α where
  write x := f.write (toOther x)
  read bytes := (f.read bytes).bind fun (y, rest) => (ofOther y).map (·, rest)
  read_write x rest := by simp [f.read_write, h]

/-- Two values, one after the other. -/
def pair (f : Format α) (g : Format β) : Format (α × β) where
  write x := f.write x.1 ++ g.write x.2
  read bytes := (f.read bytes).bind fun (x, rest) =>
    (g.read rest).map fun (y, rest) => ((x, y), rest)
  read_write x rest := by simp [f.read_write, g.read_write, List.append_assoc]

/-- Writes a 1 in front of every value of a list and a 0 behind the last. -/
def writeList (f : Format α) : List α → List UInt8
  | [] => [0]
  | x :: xs => 1 :: (f.write x ++ writeList f xs)

/-- Reads a list of at most `n` values. -/
def readList (f : Format α) : (n : Nat) → List UInt8 → Option (List α × List UInt8)
  | _, 0 :: rest => some ([], rest)
  | n + 1, _ :: rest =>
    (f.read rest).bind fun (x, rest) =>
      (readList f n rest).map fun (xs, rest) => (x :: xs, rest)
  | _, _ => none

theorem readList_writeList (f : Format α) (xs : List α) (n : Nat) (rest : List UInt8)
    (h : xs.length ≤ n) : readList f n (writeList f xs ++ rest) = some (xs, rest) := by
  induction xs generalizing n with
  | nil => cases n <;> rfl
  | cons x xs ih =>
    obtain ⟨n, rfl⟩ : ∃ k, n = k + 1 := ⟨n - 1, by simp at h; omega⟩
    simp [writeList, readList, f.read_write, ih n (by simpa using h)]

theorem length_le_writeList (f : Format α) (xs : List α) :
    xs.length ≤ (writeList f xs).length := by
  induction xs with
  | nil => simp
  | cons x xs ih =>
    simp only [writeList, List.length_cons, List.length_append]
    omega

/-- A list of values. -/
def list (f : Format α) : Format (List α) where
  write := writeList f
  read bytes := readList f bytes.length bytes
  read_write xs rest := readList_writeList f xs _ rest (by
    have := length_le_writeList f xs
    simp only [List.length_append]
    omega)

/-- A truth value. -/
def flag : Format Bool :=
  byte.via (fun b => if b then 1 else 0) (fun b => some (b = 1)) (by decide)

/-- A word of 32 bits. -/
def word : Format UInt32 where
  write n := LittleEndian.toBytes 4 n.toNat
  read bytes :=
    if (bytes.take 4).length = 4 then
      some (UInt32.ofNat (LittleEndian.ofBytes (bytes.take 4)), bytes.drop 4)
    else none
  read_write n rest := by
    have hn : n.toNat % LittleEndian.valueCount 4 = n.toNat := Nat.mod_eq_of_lt n.toNat_lt
    rw [List.take_left' (LittleEndian.length_toBytes 4 _),
      List.drop_left' (LittleEndian.length_toBytes 4 _), LittleEndian.length_toBytes,
      LittleEndian.ofBytes_toBytes, hn]
    simp

/-- A text, in UTF-8. -/
def text : Format String :=
  byte.list.via Text.Utf8.ofString Text.Utf8.toString? Text.Utf8.toString?_ofString

end Format

end StatefulPages
