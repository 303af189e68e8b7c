import OnlinePlay.Cli.Run

/-!
# The program

The lobby browser as a program. It has no way to the network of its own, so the directory is always
out of reach.
-/

/-- Lists the sessions of the lobby. -/
def main (args : List String) : IO UInt32 := do
  let url ← IO.getEnv "MPN_LOBBY_URL"
  let username ← IO.getEnv "MPN_USERNAME"
  let result := (OnlinePlay.Cli.run url username args 0 { isOnline := false }).1
  for line in result.stdout do
    IO.println line
  for line in result.stderr do
    IO.eprintln line
  return UInt32.ofNat result.exit
