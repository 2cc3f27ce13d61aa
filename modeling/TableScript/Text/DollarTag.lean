/-!
Dollar tags: two dollar signs with nothing or a name between them. A text between two equal tags
is taken as it stands.
-/

namespace TableScript.Text

/-- The dollar tag at the start of a text. The name between the signs begins with a `lead`
character and goes on with `inner` ones. -/
def dollarTag? (lead inner : Char → Bool) : List Char → Option (List Char)
  | '$' :: rest =>
      let name := rest.takeWhile inner
      if name.head?.all lead && (rest.dropWhile inner).head? == some '$' then
        some ('$' :: name ++ ['$'])
      else none
  | _ => none

end TableScript.Text
