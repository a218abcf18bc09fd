import StyleVars.Property.Name

namespace StyleVars.Property

/-- The names in a text, each taken as far as it goes. A name may begin in the middle of a word, and
the search goes on behind its end. -/
def tokens : Text → List Text
  | '-' :: '-' :: c :: rest =>
    if isNameStart c then
      ('-' :: '-' :: c :: rest.takeWhile isNameChar) :: tokens (rest.dropWhile isNameChar)
    else tokens ('-' :: c :: rest)
  | _ :: rest => tokens rest
  | [] => []
termination_by t => t.length
decreasing_by
  · have := (List.dropWhile_sublist isNameChar (l := rest)).length_le
    simp only [List.length_cons]
    omega
  · simp
  · simp

end StyleVars.Property
