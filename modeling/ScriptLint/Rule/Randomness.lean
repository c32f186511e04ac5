import ScriptLint.Rule.Basic

/-!
# Predictable randomness

The ordinary random functions are predictable. A line that calls one of them and speaks of a secret
is reported.
-/

namespace ScriptLint.Randomness

def functions : List String :=
  ["randi", "randf", "rand_range"]

/-- Words that make a random value security-relevant, in lowercase. -/
def secrets : List String :=
  ["token", "key", "password", "secret", "salt", "nonce", "session"]

def callsRandom (line : Line) : Bool :=
  functions.any fun name => Pattern.occursAtWordStart [.exactly name, .gap, .exactly "("] line

def mentionsSecret (line : Line) : Bool :=
  secrets.any fun secret => containsText secret (lowered line)

/-- Secrets need randomness that cannot be predicted. -/
def rule : Rule where
  id := "S004"
  name := "Insecure Random"
  description :=
    "Use Crypto.random_bytes() for security-critical randomness, not randi()/randf()"
  severity := .warning
  category := .security
  scan := scanEachLine (fun line => callsRandom line && mentionsSecret line)
    ("Using insecure random function for security-critical purpose. " ++
      "Use Crypto.random_bytes() instead")

end ScriptLint.Randomness
