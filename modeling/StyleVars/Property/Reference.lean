import StyleVars.Text.Basic

namespace StyleVars.Property

def reference (name : Text) : Text := ['v', 'a', 'r', '('] ++ name ++ [')']

end StyleVars.Property
