/-!
# Line ends

A line may end with a line feed, a carriage return or both.  Text that is read by lines
has every line end written as a line feed.
-/

namespace EntryPoints.Text

def withLineFeeds : List Char → List Char
  | '\r' :: '\n' :: rest => '\n' :: withLineFeeds rest
  | c :: rest => (if c = '\r' then '\n' else c) :: withLineFeeds rest
  | [] => []

end EntryPoints.Text
