/-
# Output

What a command prints, on either of its two streams.
-/

namespace WrenAnalysis
namespace Command

/-- What has been printed. -/
structure Output where
  stdout : String := ""
  stderr : String := ""
  deriving DecidableEq, Repr

namespace Output

/-- More on standard output. -/
def print (o : Output) (text : String) : Output := { o with stdout := o.stdout ++ text }

/-- More on standard error. -/
def complain (o : Output) (text : String) : Output := { o with stderr := o.stderr ++ text }

/-- What is printed first, then more. -/
def followedBy (o more : Output) : Output := (o.print more.stdout).complain more.stderr

end Output
end Command
end WrenAnalysis
