namespace OtterWorks

def isTokenChar (c : Char) : Bool := c.isAlphanum || "!#$%&'*+-.^_`|~".toList.contains c

def canonicalChars : Bool → List Char → List Char
  | _, [] => []
  | upper, c :: cs => (if upper then c.toUpper else c.toLower) :: canonicalChars (c == '-') cs

/-- A field name in the spelling `Header` stores it under; a name that is no token stays as it is. -/
def canonicalKey (key : String) : String :=
  if key.toList.all isTokenChar then String.ofList (canonicalChars true key.toList) else key

/-- HTTP header lines under their canonical names, in the order they were added. -/
abbrev Header := List (String × String)

namespace Header

def values (h : Header) (key : String) : List String :=
  (h.filter fun line => line.1 = canonicalKey key).map Prod.snd

def get (h : Header) (key : String) : String := (h.values key).headD ""

def del (h : Header) (key : String) : Header := h.filter fun line => line.1 ≠ canonicalKey key

def set (h : Header) (key value : String) : Header := h.del key ++ [(canonicalKey key, value)]

def delAll (h : Header) (keys : List String) : Header := keys.foldl del h

theorem values_del (h : Header) (key other : String) :
    (h.del key).values other = if canonicalKey other = canonicalKey key then [] else h.values other := by
  simp only [values, del, List.filter_filter]
  split
  next same =>
    rw [same, List.filter_eq_nil_iff.mpr (by simp), List.map_nil]
  next differ =>
    congr 1
    apply List.filter_congr
    intro line _
    by_cases hl : line.1 = canonicalKey other
    · simp [hl, differ]
    · simp [hl]

theorem values_set (h : Header) (key value other : String) :
    (h.set key value).values other =
      if canonicalKey other = canonicalKey key then [value] else h.values other := by
  have split : (h.set key value).values other =
      (h.del key).values other ++ values [(canonicalKey key, value)] other := by
    simp [values, set, List.filter_append]
  rw [split, values_del]
  by_cases same : canonicalKey other = canonicalKey key
  · simp [same, values]
  · simp [same, values, Ne.symm same]

theorem values_delAll (h : Header) (keys : List String) (other : String) :
    (h.delAll keys).values other =
      if canonicalKey other ∈ keys.map canonicalKey then [] else h.values other := by
  induction keys generalizing h with
  | nil => simp [delAll]
  | cons key keys ih =>
    have step : h.delAll (key :: keys) = (h.del key).delAll keys := rfl
    rw [step, ih, values_del]
    by_cases same : canonicalKey other = canonicalKey key
    · simp [same]
    · simp [same]

end Header

/-- The elements of comma-separated field values, without the blanks around them. -/
def fieldElements (values : List String) : List String :=
  values.flatMap fun v => (v.toList.splitOn ',').map fun part =>
    String.ofList ((part.dropWhile isBlank).reverse.dropWhile isBlank).reverse
where
  isBlank (c : Char) : Bool := c == ' ' || c == '\t' || c == '\n' || c == '\r'

def lowerAscii (s : String) : String := String.ofList (s.toList.map Char.toLower)

def containsToken (values : List String) (token : String) : Bool :=
  (fieldElements values).any fun element => lowerAscii element == lowerAscii token

end OtterWorks
